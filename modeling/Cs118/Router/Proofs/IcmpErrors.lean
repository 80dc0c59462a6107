import Cs118.Router.Proofs.Echo
/-!
# ICMP errors

The handler looks at the byte behind the IP header before it looks at why it was called.
Where it is 8, an expired frame and a datagram for a port of the router are taken for echo
requests.
-/

namespace Cs118.Router

open Cs118.Lib
open Cs118.Lib.Bytes
open Cs118.Lib.OnesComplement

/-- Why a frame calls for an ICMP error: the type and the code of the message and the
address it comes from. -/
inductive IcmpCause (t : RouterTables) (packet : Buffer) (inIface : String) :
    UInt8 → UInt8 → UInt32 → Prop
  | timeExceeded (iface : Interface) (hiface : t.findIfaceByName inIface = some iface)
      (hforeign : t.findIfaceByIp (ipHeader packet).ipDst = none)
      (hexpired : (ipHeader packet).ipTtl = 1) : IcmpCause t packet inIface 11 0 iface.ip
  | portUnreachable (hlocal : (t.findIfaceByIp (ipHeader packet).ipDst).isSome)
      (hudp : (ipHeader packet).ipP = 0x11) : IcmpCause t packet inIface 3 3 (ipHeader packet).ipDst

/-- An ICMP message to the source of `packet` that quotes its IP header and the next
eight bytes. -/
structure IcmpErrorFor (packet message : Buffer) (type code : UInt8) (src : UInt32) : Prop where
  ipv4 : IsIpv4 message
  protocol : (ipHeader message).ipP = 0x01
  ipDst : (ipHeader message).ipDst = (ipHeader packet).ipSrc
  ipSrc : (ipHeader message).ipSrc = src
  type_eq : icmpType message = type
  code_eq : (IcmpHdr.load (message.drop 34)).icmpCode = code
  quoted : getBytes message 42 28 = getBytes packet 14 28
  valid : IcmpValid message

def Reported (w : World) (packet : Buffer) (inIface : String) (type code : UInt8)
    (src : UInt32) : Prop :=
  ∃ message outIface,
    sentFrames (w.eventsTo (w.receive packet inIface).1) = [(message, outIface)] ∧
      IcmpErrorFor packet message type code src

section

variable {w : World} {t : RouterTables} {packet : Buffer} {inIface : String} {type code : UInt8}
  {src : UInt32}

theorem IcmpCause.forIcmp (h : IcmpCause t packet inIface type code src)
    (haccepted : Accepted t packet inIface) : ForIcmp t packet inIface 1 := by
  cases h with
  | timeExceeded iface hiface hforeign hexpired =>
      exact ⟨haccepted, Or.inr ⟨hforeign, hexpired, rfl⟩⟩
  | portUnreachable hlocal hudp => exact ⟨haccepted, Or.inl ⟨hlocal, Or.inr ⟨hudp, rfl⟩⟩⟩

/-! ## The message -/

theorem drop_icmpError (iface : Interface) (h : 42 ≤ packet.length) :
    (icmpError t iface packet).drop 34 =
      (if forUs t packet then 0x03 else 0x0b) :: (if forUs t packet then 0x03 else 0x00) ::
        (image16 (cksum (errorMessage t packet) 36) ++
          (List.replicate 4 0 ++ getBytes packet 14 28)) := by
  rw [(icmpError_answer h).message]
  simp [errorMessage, setBytes, List.replicate]

theorem icmpValid_icmpError (iface : Interface) (h : 42 ≤ packet.length) :
    IcmpValid (icmpError t iface packet) := by
  have hanswer : Answer 70 _ _ _ (icmpError t iface packet) := icmpError_answer h
  have hlength : (errorMessage t packet).length = 36 := length_errorMessage h
  have hfield : wordSum (getBytes (errorMessage t packet) 2 2) = 0 := by
    simp [errorMessage, getBytes, List.replicate]
  have hstore := cksum_store (by omega : (errorMessage t packet).length ≤ 131074) (by decide)
    (by omega) hfield
  rw [hlength] at hstore
  rw [icmpValid_iff_cksum (by rw [hanswer.carries.length]; decide), hanswer.message,
    length_write hlength (by simp)]
  exact hstore

theorem IcmpCause.message (h : IcmpCause t packet inIface type code src) (hlen : 42 ≤ packet.length)
    (htype : IsIpv4 packet) {iface : Interface} (hiface : t.findIfaceByName inIface = some iface) :
    IcmpErrorFor packet (icmpError t iface packet) type code src := by
  have hanswer : Answer 70 _ _ _ (icmpError t iface packet) := icmpError_answer hlen
  have hheader := hanswer.carries.ipHeader_eq
  have hdrop : (icmpError t iface packet).drop 34 = _ := drop_icmpError iface hlen
  have hquoted : getBytes (icmpError t iface packet) 42 28 = getBytes packet 14 28 := by
    rw [getBytes_message _ 8 28, hdrop, getBytes]
    simp [image16, leBytes, List.replicate, getBytes, List.take_take]
  have hipv4 : IsIpv4 (icmpError t iface packet) := by
    rw [isIpv4_iff, hanswer.type]
    exact isIpv4_iff.mp htype
  cases h with
  | timeExceeded own hown hforeign hexpired =>
      obtain rfl := Option.some.inj (hown.symm.trans hiface)
      have hnot : forUs t packet = false := by simp [forUs, hforeign]
      rw [hnot] at hdrop
      refine ⟨hipv4, ?_, ?_, ?_, ?_, ?_, hquoted, icmpValid_icmpError own hlen⟩
      · rw [hheader]
        rfl
      · rw [hheader]
        rfl
      · rw [hheader]
        simp [errorHeader, updateSum, errorSource, hnot]
      · rw [icmpType, hdrop]
        rfl
      · rw [hdrop]
        rfl
  | portUnreachable hlocal hudp =>
      have hours : forUs t packet = true := hlocal
      rw [hours] at hdrop
      refine ⟨hipv4, ?_, ?_, ?_, ?_, ?_, hquoted, icmpValid_icmpError iface hlen⟩
      · rw [hheader]
        rfl
      · rw [hheader]
        rfl
      · rw [hheader]
        simp [errorHeader, updateSum, errorSource, hours]
      · rw [icmpType, hdrop]
        rfl
      · rw [hdrop]
        rfl

/-! ## The handler -/

theorem sentFrames_icmpError (hicmp : ForIcmp w.router.tables packet inIface 1)
    (hlen : 42 ≤ packet.length) (htype : icmpType packet ≠ 8) {iface : Interface}
    (hiface : w.router.tables.findIfaceByName inIface = some iface) :
    sentFrames (w.eventsTo (w.receive packet inIface).1) =
      [(icmpError w.router.tables iface packet, iface.name)] := by
  rw [receive_icmpError hicmp hlen htype hiface, World.eventsTo_setArp, sentFrames_learns_append]

theorem sentFrames_echo {timeExceed : Nat}
    (hicmp : ForIcmp w.router.tables packet inIface timeExceed) (hlen : 38 ≤ packet.length)
    (htype : icmpType packet = 8) {iface : Interface}
    (hiface : w.router.tables.findIfaceByName inIface = some iface) :
    sentFrames (w.eventsTo (w.receive packet inIface).1) =
      [(echoReply iface timeExceed (setBytes packet 36 (image16 0)), iface.name)] := by
  rw [receive_echo hicmp hlen htype hiface, World.eventsTo_setArp, sentFrames_learns_append]

theorem IcmpCause.not_echoReply (h : IcmpCause t packet inIface type code src)
    (hlen : 38 ≤ packet.length) (iface : Interface) :
    ¬ IcmpErrorFor packet (echoReply iface 1 (setBytes packet 36 (image16 0))) type code src := by
  intro herror
  obtain ⟨-, hsrc, -, hmessage⟩ := echoReply_parts iface 1 hlen
  cases h with
  | timeExceeded own hown hforeign hexpired =>
      -- it comes from the address the frame was sent to
      have hfrom := herror.ipSrc
      rw [ipSrc_eq, hsrc, ← ipDst_eq] at hfrom
      rw [hfrom] at hforeign
      have hmem := List.mem_of_find?_eq_some hown
      have hother := List.find?_eq_none.mp hforeign own hmem
      simp at hother
  | portUnreachable hlocal hudp =>
      obtain ⟨kind, second, high, low, rest, hpacket⟩ :=
        exists_cons_four (by rw [List.length_drop]; omega : 4 ≤ (packet.drop 34).length)
      have htype := herror.type_eq
      rw [icmpType, hmessage, hpacket, if_neg (by decide), answeredAs_cons] at htype
      exact absurd htype (by simp [IcmpHdr.load, load8])

/-! ## Main result -/

/-- A frame that calls for an ICMP error gets it, and nothing else, exactly if the byte
behind its IP header is not 8. -/
theorem reported_iff (haccepted : Accepted w.router.tables packet inIface)
    (hlen : 42 ≤ packet.length) (hcause : IcmpCause w.router.tables packet inIface type code src) :
    Reported w packet inIface type code src ↔ icmpType packet ≠ 8 := by
  obtain ⟨iface, hiface⟩ := Option.isSome_iff_exists.mp haccepted.known
  have hicmp := hcause.forIcmp haccepted
  constructor
  · rintro ⟨message, outIface, hsent, herror⟩ hecho
    rw [sentFrames_echo hicmp (by omega) hecho hiface, List.cons.injEq, Prod.mk.injEq] at hsent
    rw [← hsent.1.1] at herror
    exact hcause.not_echoReply (by omega) iface herror
  · intro htype
    exact ⟨_, _, sentFrames_icmpError hicmp hlen htype hiface,
      hcause.message hlen haccepted.etherType hiface⟩

end

def clientProbe (payload : Buffer) : Buffer :=
  clientFrame (projectMac 3) (inetAton 10 0 1 1) 64 0x11 0 payload

theorem reported_probe :
    Reported projectRouter (clientProbe (List.replicate 8 0)) "sw0-eth3" 3 3 (inetAton 10 0 1 1) ↔
      icmpType (clientProbe (List.replicate 8 0)) ≠ 8 :=
  reported_iff
    ⟨by decide +kernel, by decide +kernel, by decide +kernel, by decide +kernel⟩
    (by decide +kernel) (.portUnreachable (by decide +kernel) (by decide +kernel))

/-- A datagram from a port that starts with the byte 8. -/
theorem probe_2048_not_reported :
    Accepted projectRouter.router.tables (clientProbe (8 :: List.replicate 7 0)) "sw0-eth3" ∧
      (clientProbe (8 :: List.replicate 7 0)).length = 42 ∧
      IcmpCause projectRouter.router.tables (clientProbe (8 :: List.replicate 7 0)) "sw0-eth3" 3 3
        (inetAton 10 0 1 1) ∧
      ¬ Reported projectRouter (clientProbe (8 :: List.replicate 7 0)) "sw0-eth3" 3 3
        (inetAton 10 0 1 1) := by
  refine ⟨⟨by decide +kernel, by decide +kernel, by decide +kernel, by decide +kernel⟩,
    by decide +kernel, .portUnreachable (by decide +kernel) (by decide +kernel), ?_⟩
  rintro ⟨message, outIface, hsent, herror⟩
  have hsent' : sentFrames (projectRouter.eventsTo (projectRouter.receive
      (clientProbe (8 :: List.replicate 7 0)) "sw0-eth3").1) =
      [(echoReply ⟨"sw0-eth3", projectMac 3, inetAton 10 0 1 1⟩ 1
        (setBytes (clientProbe (8 :: List.replicate 7 0)) 36 (image16 0)), "sw0-eth3")] := by
    decide +kernel
  rw [hsent', List.cons.injEq, Prod.mk.injEq] at hsent
  have htype := herror.type_eq
  rw [← hsent.1.1] at htype
  exact absurd htype (by decide +kernel)

end Cs118.Router
