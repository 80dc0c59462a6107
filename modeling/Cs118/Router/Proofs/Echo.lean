import Cs118.Router.Proofs.Checksums
import Cs118.Router.Proofs.Exchange
/-!
# Echo requests and their replies

The length that the echo branch hands to `cksum` is the size of a `std::vector` less 34,
a negative number.  So every request passes the check, and every reply carries 0xffff.
-/

namespace Cs118.Router

open Cs118.Lib
open Cs118.Lib.Bytes
open Cs118.Lib.OnesComplement

/-- The words of the ICMP message, with its checksum among them, add up to all ones. -/
def IcmpValid (frame : Buffer) : Prop := wordSum (frame.drop 34) % 65535 = 0

instance : DecidablePred IcmpValid := fun _ => inferInstanceAs (Decidable (_ = _))

theorem icmpValid_iff_cksum {frame : Buffer} (h : frame.length ≤ 131072) :
    IcmpValid frame ↔ cksum (frame.drop 34) (frame.drop 34).length = 0xffff :=
  (cksum_eq_ones_iff (by rw [List.length_drop]; omega)).symm

structure EchoRequest (t : RouterTables) (packet : Buffer) (inIface : String) : Prop where
  accepted : Accepted t packet inIface
  forUs : (t.findIfaceByIp (ipHeader packet).ipDst).isSome
  protocol : (ipHeader packet).ipP = 0x01
  fits : 38 ≤ packet.length
  echo : icmpType packet = 8

structure EchoReplied (packet reply : Buffer) : Prop where
  echoReply : icmpType reply = 0
  valid : IcmpValid reply
  ipSrc : (ipHeader reply).ipSrc = (ipHeader packet).ipDst
  ipDst : (ipHeader reply).ipDst = (ipHeader packet).ipSrc
  etherDhost : (EthernetHdr.load reply).etherDhost = (EthernetHdr.load packet).etherShost
  icmpCode : getBytes reply 35 1 = getBytes packet 35 1
  data : reply.drop 38 = packet.drop 38

/-- The request is answered if and only if it is valid, and rightly. -/
def EchoExchange (w : World) (packet : Buffer) (inIface : String) : Prop :=
  let sent := sentFrames (w.eventsTo (w.receive packet inIface).1)
  (sent ≠ [] ↔ IcmpValid packet) ∧
    ∀ reply outIface, (reply, outIface) ∈ sent → EchoReplied packet reply

/-! ## The handler -/

theorem receive_echoRequest {w : World} {packet : Buffer} {inIface : String}
    (h : EchoRequest w.router.tables packet inIface) :
    ∃ iface, w.receive packet inIface =
      (w.setArp (w.learns packet (ipHeader packet).ipSrc).1
        ((w.learns packet (ipHeader packet).ipSrc).2 ++
          [.sent (echoReply iface 0 (setBytes packet 36 (image16 0))) iface.name .echoReply]),
        .ok ()) := by
  obtain ⟨iface, hiface⟩ := Option.isSome_iff_exists.mp h.accepted.known
  have hicmp : ForIcmp w.router.tables packet inIface 0 :=
    ⟨h.accepted, Or.inl ⟨h.forUs, Or.inl ⟨h.protocol, rfl⟩⟩⟩
  exact ⟨iface, receive_echo hicmp h.fits h.echo hiface⟩

theorem sentFrames_echoRequest {w : World} {packet : Buffer} {inIface : String}
    (h : EchoRequest w.router.tables packet inIface) :
    ∃ iface, sentFrames (w.eventsTo (w.receive packet inIface).1) =
      [(echoReply iface 0 (setBytes packet 36 (image16 0)), iface.name)] := by
  obtain ⟨iface, hreceive⟩ := receive_echoRequest h
  refine ⟨iface, ?_⟩
  rw [hreceive, World.eventsTo_setArp, sentFrames_learns_append]

/-! ## The bytes of the reply -/

/-- The last four writes: addresses exchanged, the rest as it was. -/
theorem exchanged_regions {temp shost : Buffer} (hlen : 38 ≤ temp.length)
    (hshost : shost.length = 6) :
    let swapped := setBytes (setBytes temp 30 (getBytes temp 26 4)) 26 (getBytes temp 30 4)
    let reply := setBytes (setBytes swapped 0 (getBytes swapped 6 6)) 6 shost
    getBytes reply 0 6 = getBytes temp 6 6 ∧ getBytes reply 26 4 = getBytes temp 30 4 ∧
      getBytes reply 30 4 = getBytes temp 26 4 ∧ reply.drop 34 = temp.drop 34 := by
  intro swapped reply
  have hsrc : (getBytes temp 26 4).length = 4 := length_getBytes (by omega)
  have hdst : (getBytes temp 30 4).length = 4 := length_getBytes (by omega)
  have hfirst : (setBytes temp 30 (getBytes temp 26 4)).length = temp.length :=
    length_setBytes (by omega)
  have hswapped : swapped.length = temp.length := length_write hfirst (by omega)
  have hdhost : (getBytes swapped 6 6).length = 6 := length_getBytes (by omega)
  have haddressed : (setBytes swapped 0 (getBytes swapped 6 6)).length = temp.length :=
    length_write hswapped (by omega)
  have hkept : ∀ start count, 12 ≤ start →
      getBytes reply start count = getBytes swapped start count := by
    intro start count hstart
    rw [getBytes_setBytes_disjoint (by omega) (by omega),
      getBytes_setBytes_disjoint (by omega) (by omega)]
  refine ⟨?_, ?_, ?_, ?_⟩
  · have hback := getBytes_setBytes_same (by omega : 0 + (getBytes swapped 6 6).length ≤ swapped.length)
    rw [hdhost] at hback
    rw [getBytes_setBytes_disjoint (by omega) (by omega), hback,
      getBytes_setBytes_disjoint (by omega) (by omega),
      getBytes_setBytes_disjoint (by omega) (by omega)]
  · have hback := getBytes_setBytes_same (by omega :
      26 + (getBytes temp 30 4).length ≤ (setBytes temp 30 (getBytes temp 26 4)).length)
    rw [hdst] at hback
    rw [hkept _ _ (by decide), hback]
  · have hback := getBytes_setBytes_same (by omega :
      30 + (getBytes temp 26 4).length ≤ temp.length)
    rw [hsrc] at hback
    rw [hkept _ _ (by decide), getBytes_setBytes_disjoint (by omega) (by omega), hback]
  · rw [drop_setBytes_before (by omega) (by omega), drop_setBytes_before (by omega) (by omega),
      drop_setBytes_before (by omega) (by omega), drop_setBytes_before (by omega) (by omega)]

/-- An ICMP message with another type and 0xffff in place of its checksum. -/
def answeredAs (type : UInt8) (message : Buffer) : Buffer :=
  setBytes (setBytes (setBytes message 2 (image16 0)) 0 [type]) 2 (image16 0xffff)

theorem echoReply_parts (iface : Interface) (timeExceed : Nat) {packet : Buffer}
    (hlen : 38 ≤ packet.length) :
    let reply := echoReply iface timeExceed (setBytes packet 36 (image16 0))
    getBytes reply 0 6 = getBytes packet 6 6 ∧ getBytes reply 26 4 = getBytes packet 30 4 ∧
      getBytes reply 30 4 = getBytes packet 26 4 ∧
      reply.drop 34 = answeredAs (if timeExceed = 0 then 0x00 else 0x0b) (packet.drop 34) := by
  unfold echoReply
  dsimp only
  rw [cksum_of_nonpos _ (by decide)]
  generalize (if timeExceed = 0 then (0x00 : UInt8) else 0x0b) = type
  generalize (cksum _ 20).toUInt8 = ipSum
  generalize htemp : setBytes (setBytes (setBytes (setBytes (setBytes packet 36 (image16 0)) 34
    [type]) 36 (image16 0xffff)) 24 [0x00]) 24 [ipSum] = temp
  have hfirst : (setBytes packet 36 (image16 0)).length = packet.length :=
    length_setBytes (by simpa using hlen)
  have hsecond : (setBytes (setBytes packet 36 (image16 0)) 34 [type]).length = packet.length :=
    length_write hfirst (by simp; omega)
  have hthird : (setBytes (setBytes (setBytes packet 36 (image16 0)) 34 [type]) 36
      (image16 0xffff)).length = packet.length := length_write hsecond (by simpa using hlen)
  have hpatched : (setBytes (setBytes (setBytes (setBytes packet 36 (image16 0)) 34 [type]) 36
      (image16 0xffff)) 24 [0x00]).length = packet.length := length_write hthird (by simp; omega)
  have hlength : temp.length = packet.length := by
    rw [← htemp]
    exact length_write hpatched (by simp; omega)
  have hkept : ∀ start count, start + count ≤ 24 ∨ 25 ≤ start ∧ start + count ≤ 34 →
      getBytes temp start count = getBytes packet start count := by
    intro start count hregion
    rw [← htemp, getBytes_setBytes_disjoint (by simp; omega) (by simp; omega),
      getBytes_setBytes_disjoint (by simp; omega) (by simp; omega),
      getBytes_setBytes_disjoint (by simp; omega) (by simp; omega),
      getBytes_setBytes_disjoint (by simp; omega) (by simp; omega),
      getBytes_setBytes_disjoint (by simp; omega) (by simp; omega)]
  have hmessage : temp.drop 34 = answeredAs type (packet.drop 34) := by
    rw [← htemp, drop_setBytes_before (by simp; omega) (by simp),
      drop_setBytes_before (by simp; omega) (by simp), drop_setBytes_after (by simp; omega) (by simp),
      drop_setBytes_after (by simp; omega) (by simp), drop_setBytes_after (by simpa using hlen)
      (by simp)]
    rfl
  obtain ⟨hdhost, hsrc, hdst, hrest⟩ := exchanged_regions
    (by omega : 38 ≤ temp.length) iface.addr.length_eq
  refine ⟨hdhost.trans (hkept _ _ (by decide)), hsrc.trans (hkept _ _ (by decide)),
    hdst.trans (hkept _ _ (by decide)), hrest.trans hmessage⟩

theorem answeredAs_cons (new type code high low : UInt8) (rest : Buffer) :
    answeredAs new (type :: code :: high :: low :: rest) =
      new :: code :: 0xff :: 0xff :: rest := by
  simp [answeredAs, setBytes, image16, leBytes]

theorem exists_cons_four {message : Buffer} (h : 4 ≤ message.length) :
    ∃ type code high low rest, message = type :: code :: high :: low :: rest := by
  match message, h with
  | type :: code :: high :: low :: rest, _ => exact ⟨type, code, high, low, rest, rfl⟩

theorem ipSrc_eq (frame : Buffer) : (ipHeader frame).ipSrc = load32 (getBytes frame 26 4) := by
  rw [getBytes, load32_take _ (by decide)]
  show load32 ((frame.drop 14).drop 12) = _
  rw [List.drop_drop]

theorem ipDst_eq (frame : Buffer) : (ipHeader frame).ipDst = load32 (getBytes frame 30 4) := by
  rw [getBytes, load32_take _ (by decide)]
  show load32 ((frame.drop 14).drop 16) = _
  rw [List.drop_drop]

theorem EtherAddr.load_take {bytes : Buffer} (h : 6 ≤ bytes.length) :
    EtherAddr.load (bytes.take 6) = EtherAddr.load bytes := by
  rw [EtherAddr.load, EtherAddr.load, EtherAddr.mk.injEq, List.take_append_of_le_length h,
    List.take_left' (by simpa using h)]

theorem getBytes_message (frame : Buffer) (offset count : Nat) :
    getBytes frame (34 + offset) count = getBytes (frame.drop 34) offset count := by
  rw [getBytes, getBytes, List.drop_drop]

theorem echoReplied_iff (iface : Interface) {packet : Buffer} (hlen : 38 ≤ packet.length) :
    EchoReplied packet (echoReply iface 0 (setBytes packet 36 (image16 0))) ↔
      IcmpValid (echoReply iface 0 (setBytes packet 36 (image16 0))) := by
  obtain ⟨hdhost, hsrc, hdst, hmessage⟩ := echoReply_parts iface 0 hlen
  generalize echoReply iface 0 (setBytes packet 36 (image16 0)) = reply at *
  obtain ⟨type, code, high, low, rest, hpacket⟩ :=
    exists_cons_four (by rw [List.length_drop]; omega : 4 ≤ (packet.drop 34).length)
  rw [if_pos rfl, hpacket, answeredAs_cons] at hmessage
  have hreply : 38 ≤ reply.length := by
    have hlength := congrArg List.length hmessage
    rw [List.length_drop] at hlength
    simp only [List.length_cons] at hlength
    omega
  refine ⟨fun h => h.valid, fun hvalid => ⟨?_, hvalid, ?_, ?_, ?_, ?_, ?_⟩⟩
  · rw [icmpType, hmessage]
    rfl
  · rw [ipSrc_eq, hsrc, ipDst_eq]
  · rw [ipDst_eq, hdst, ipSrc_eq]
  · show EtherAddr.load reply = EtherAddr.load (packet.drop 6)
    have hsource : 6 ≤ (packet.drop 6).length := by
      rw [List.length_drop]
      omega
    rw [← EtherAddr.load_take (by omega : 6 ≤ reply.length), ← EtherAddr.load_take hsource]
    exact congrArg EtherAddr.load hdhost
  · rw [getBytes_message reply 1 1, getBytes_message packet 1 1, hmessage, hpacket]
    rfl
  · have hdata : ∀ frame : Buffer, frame.drop 38 = (frame.drop 34).drop 4 := fun frame => by
      rw [List.drop_drop]
    rw [hdata, hdata, hmessage, hpacket]
    rfl

/-- When the request is valid, so is the reply exactly for one checksum of the request. -/
theorem icmpValid_echoReply_iff (iface : Interface) {packet : Buffer} (hlen : 38 ≤ packet.length)
    (htype : icmpType packet = 8) (hvalid : IcmpValid packet) :
    IcmpValid (echoReply iface 0 (setBytes packet 36 (image16 0))) ↔
      getBytes packet 36 2 = [0xf7, 0xff] := by
  obtain ⟨-, -, -, hmessage⟩ := echoReply_parts iface 0 hlen
  obtain ⟨type, code, high, low, rest, hpacket⟩ :=
    exists_cons_four (by rw [List.length_drop]; omega : 4 ≤ (packet.drop 34).length)
  have hhigh := high.toNat_lt
  have hlow := low.toNat_lt
  have height : type = 8 := by
    rw [icmpType, hpacket] at htype
    exact htype
  have hfield : getBytes packet 36 2 = [high, low] := by
    rw [getBytes_message packet 2 2, hpacket]
    rfl
  rw [if_pos rfl, hpacket, answeredAs_cons] at hmessage
  rw [IcmpValid, hpacket, height] at hvalid
  rw [IcmpValid, hmessage, hfield]
  simp only [wordSum_cons_cons, UInt8.reduceToNat] at hvalid ⊢
  rw [List.cons.injEq, List.cons.injEq, ← UInt8.toNat_inj, ← UInt8.toNat_inj]
  simp only [UInt8.reduceToNat, and_true]
  -- the reply has 65535 in place of type and checksum
  have hrest : (256 * 0 + code.toNat + (256 * 255 + 255 + wordSum rest)) % 65535 = 0 ↔
      (2048 + (256 * high.toNat + low.toNat)) % 65535 = 0 := by omega
  rw [hrest]
  constructor
  · intro hsum
    have hones : 2048 + (256 * high.toNat + low.toNat) = 65535 := by omega
    omega
  · rintro ⟨hhighEq, hlowEq⟩
    rw [hhighEq, hlowEq]

/-! ## Main result -/

/-- An echo request for the router, with a valid IPv4 header: it is answered if and only if
its ICMP checksum is valid, and rightly, exactly when that checksum is valid and reads
f7 ff. -/
theorem echo_exchange_iff {w : World} {packet : Buffer} {inIface : String}
    (h : EchoRequest w.router.tables packet inIface) :
    EchoExchange w packet inIface ↔ IcmpValid packet ∧ getBytes packet 36 2 = [0xf7, 0xff] := by
  obtain ⟨iface, hsent⟩ := sentFrames_echoRequest h
  have hreplied := echoReplied_iff iface h.fits
  unfold EchoExchange
  rw [hsent]
  constructor
  · rintro ⟨hanswered, hright⟩
    have hvalid : IcmpValid packet := hanswered.mp (by simp)
    have hreply := hreplied.mp (hright _ iface.name (by simp))
    exact ⟨hvalid, (icmpValid_echoReply_iff iface h.fits h.echo hvalid).mp hreply⟩
  · rintro ⟨hvalid, hfield⟩
    refine ⟨by simp [hvalid], fun reply outIface hmem => ?_⟩
    rw [List.mem_singleton] at hmem
    rw [(Prod.mk.inj hmem).1]
    exact hreplied.mpr ((icmpValid_echoReply_iff iface h.fits h.echo hvalid).mpr hfield)

def pingOf (message : Buffer) : Buffer :=
  clientFrame (projectMac 3) (inetAton 10 0 1 1) 64 0x01 0 message

theorem echo_exchange_zero :
    EchoExchange projectRouter (pingOf [8, 0, 0xf7, 0xff, 0, 0, 0, 0]) "sw0-eth3" ↔
      IcmpValid (pingOf [8, 0, 0xf7, 0xff, 0, 0, 0, 0]) ∧
        getBytes (pingOf [8, 0, 0xf7, 0xff, 0, 0, 0, 0]) 36 2 = [0xf7, 0xff] :=
  echo_exchange_iff
    ⟨⟨by decide +kernel, by decide +kernel, by decide +kernel, by decide +kernel⟩,
      by decide +kernel, by decide +kernel, by decide +kernel, by decide +kernel⟩

/-- A valid request with identifier 1: its reply has 0xffff where 0xfffe belongs. -/
theorem echo_reply_invalid :
    let ping := pingOf [8, 0, 0xf7, 0xfe, 0, 1, 0, 0]
    EchoRequest projectRouter.router.tables ping "sw0-eth3" ∧ IcmpValid ping ∧
      ¬ EchoExchange projectRouter ping "sw0-eth3" := by
  refine ⟨⟨⟨by decide +kernel, by decide +kernel, by decide +kernel, by decide +kernel⟩,
    by decide +kernel, by decide +kernel, by decide +kernel, by decide +kernel⟩,
    by decide +kernel, fun h => ?_⟩
  have hreply := (h.2 (echoReply ⟨"sw0-eth3", projectMac 3, inetAton 10 0 1 1⟩ 0
    (setBytes (pingOf [8, 0, 0xf7, 0xfe, 0, 1, 0, 0]) 36 (image16 0))) "sw0-eth3"
    (by decide +kernel)).valid
  exact absurd hreply (by decide +kernel)

end Cs118.Router
