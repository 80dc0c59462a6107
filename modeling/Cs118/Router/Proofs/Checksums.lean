import Cs118.Router.Proofs.CacheInvariant
import Cs118.Router.Proofs.Handling
/-!
# The IP checksum of what is sent

A forwarded frame and an ICMP error get a checksum computed anew, a released frame
keeps a verified header.  The echo reply swaps the two addresses, which keeps the
sum, and then overwrites one byte of the checksum with one byte of a checksum.
-/

namespace Cs118.Router

open Cs118.Lib
open Cs118.Lib.Bytes
open Cs118.Lib.OnesComplement

def Verifies (frame : Buffer) : Prop := cksum (ipBytes frame) 20 = 0xffff

def IsIpv4 (frame : Buffer) : Prop := (EthernetHdr.load frame).etherType = ntohs ethertypeIp

theorem cksum_twenty_iff {header : Buffer} (h : header.length = 20) :
    cksum header 20 = 0xffff ↔ wordSum header % 65535 = 0 := by
  have hiff : cksum header header.length = 0xffff ↔ wordSum header % 65535 = 0 :=
    cksum_eq_ones_iff (by omega)
  rwa [h] at hiff

theorem cksum_store_twenty {header : Buffer} (h : header.length = 20)
    (hfield : getBytes header 10 2 = image16 0) :
    cksum (setBytes header 10 (image16 (cksum header 20))) 20 = 0xffff := by
  have hzero : wordSum (getBytes header 10 2) = 0 := by
    rw [hfield]
    decide
  have hstore := cksum_store (by omega) (by decide) (by omega) hzero
  rwa [h] at hstore

theorem length_write {n offset : Nat} {buffer bytes : Buffer} (hlen : buffer.length = n)
    (hfits : offset + bytes.length ≤ n) : (setBytes buffer offset bytes).length = n := by
  rw [length_setBytes (by omega), hlen]

theorem verifies_readdressed_iff {temp shost : Buffer} (hlen : 34 ≤ temp.length)
    (hshost : shost.length = 6) :
    Verifies (setBytes (setBytes temp 0 (getBytes temp 6 6)) 6 shost) ↔ Verifies temp := by
  have hdhost : (getBytes temp 6 6).length = 6 := length_getBytes (by omega)
  have hfirst : (setBytes temp 0 (getBytes temp 6 6)).length = temp.length :=
    length_setBytes (by omega)
  rw [Verifies, ipBytes_setBytes_before (by omega) (by omega),
    ipBytes_setBytes_before hlen (by omega), Verifies]

/-! ## Checksums computed anew -/

theorem image_updateSum (h : IpHdr) :
    (updateSum h).image = setBytes ({ h with ipSum := 0 } : IpHdr).image 10
      (image16 (cksum ({ h with ipSum := 0 } : IpHdr).image 20)) :=
  image_ipSum _ _

theorem cksum_updateSum (h : IpHdr) : cksum (updateSum h).image 20 = 0xffff := by
  rw [image_updateSum]
  apply cksum_store_twenty (IpHdr.length_image _)
  rw [IpHdr.image, getBytes, List.drop_left' (by simp), List.take_left' (by simp)]

theorem verifies_forwardedFrame (packet : Buffer) (iface : Interface) (mac : EtherAddr) :
    Verifies (forwardedFrame packet iface mac) := by
  rw [Verifies, forwardedFrame, ipBytes_assembleIPPacket]
  exact cksum_updateSum _

/-- A buffer of `n` bytes with `field` at `start`. -/
structure Holding (n start : Nat) (field buffer : Buffer) : Prop where
  length : buffer.length = n
  kept : getBytes buffer start field.length = field

theorem Holding.write {n start offset : Nat} {field buffer bytes : Buffer}
    (h : Holding n start field buffer) (hfits : offset + bytes.length ≤ n)
    (hapart : offset + bytes.length ≤ start ∨ start + field.length ≤ offset) :
    Holding n start field (setBytes buffer offset bytes) where
  length := length_write h.length hfits
  kept := by rw [getBytes_setBytes_disjoint (by rw [h.length]; exact hfits) (by omega), h.kept]

theorem Holding.copy {n start offset : Nat} {field buffer : Buffer}
    (h : Holding n start field buffer) {count : Nat} (hfits : offset + count ≤ n)
    (hapart : offset + count ≤ start ∨ start + field.length ≤ offset) (other : Buffer)
    (source : Nat) : Holding n start field (setBytes buffer offset (getBytes other source count)) := by
  have hcount : (getBytes other source count).length ≤ count := List.length_take_le _ _
  exact h.write (by omega) (by omega)

theorem verifies_icmpError (t : RouterTables) (iface : Interface) {packet : Buffer}
    (h : 42 ≤ packet.length) : Verifies (icmpError t iface packet) := by
  rw [Verifies, (icmpError_answer h).carries.header]
  exact cksum_updateSum _

/-! ## The patched checksum of the echo reply -/

def sumHigh (packet : Buffer) : UInt8 := load8 (packet.drop 24)

theorem toUInt8_htons (x : UInt16) : (htons x).toUInt8.toNat = x.toNat / 256 := by
  have hlt := x.toNat_lt
  rw [UInt16.toNat_toUInt8, htons_toNat]
  simp [byteSwap, leBytes, ofLeBytes]
  omega

/-- Of a header without the first byte of its checksum, `cksum` gives that byte back
unless it was zero. -/
theorem cksum_high_byte {sum high : Nat} {header : Buffer} (hlen : header.length = 20)
    (hhigh : high < 256) (hsum : wordSum header + 256 * high = sum) (hverified : sum % 65535 = 0) :
    (cksum header 20).toUInt8.toNat = if high = 0 then 255 else high := by
  have hle := folded_le (wordSum header)
  have hmod := folded_modEq (wordSum header)
  unfold Nat.ModEq at hmod
  have hcksum : cksum header header.length = if folded (wordSum header) = 65535 then 0xffff
      else htons (UInt16.ofNat (65535 - folded (wordSum header))) := cksum_eq (by omega)
  rw [hlen] at hcksum
  have hcast : cksum header 20 = _ := hcksum
  have hzero : folded (wordSum header) = 0 ↔ wordSum header = 0 := folded_eq_zero_iff
  rw [hcast]
  by_cases hones : folded (wordSum header) = 65535
  · rw [if_pos hones, if_pos (by omega)]
    decide
  · rw [if_neg hones, toUInt8_htons, UInt16.toNat_ofNat']
    have hcomplement : (folded (wordSum header) + 256 * high) % 65535 = 0 := by omega
    split_ifs with hnone
    · omega
    · have hfolded : folded (wordSum header) + 256 * high = 65535 := by omega
      omega

/-- The patched header verifies exactly when the byte was not zero. -/
theorem patched_verifies_iff {header : Buffer} (hlen : header.length = 20)
    (hverified : cksum header 20 = 0xffff) :
    cksum (setBytes header 10 [(cksum (setBytes header 10 [0x00]) 20).toUInt8]) 20 = 0xffff ↔
      load8 (header.drop 10) ≠ 0 := by
  have hbyte : load8 (header.drop 10) = header[10] := by
    rw [List.drop_eq_getElem_cons (by omega)]
    rfl
  have hlt := header[10].toNat_lt
  have hsum := (cksum_twenty_iff hlen).mp hverified
  have hzeroed := wordSum_setByte (by decide) (by omega : 10 < header.length) 0x00
  have hlength : ∀ byte : UInt8, (setBytes header 10 [byte]).length = 20 := fun byte =>
    length_write hlen (by simp)
  have hcksum := cksum_high_byte (hlength 0x00) hlt hzeroed (by simpa using hsum)
  have hpatched := wordSum_setByte (by decide) (by omega : 10 < header.length)
    (cksum (setBytes header 10 [0x00]) 20).toUInt8
  rw [cksum_twenty_iff (hlength _), hbyte, ne_eq, ← UInt8.toNat_inj]
  rw [hcksum] at hpatched
  simp only [UInt8.toNat_zero]
  split_ifs at hpatched with hzero
  · simp only [hzero, not_true_eq_false, iff_false]
    omega
  · simp only [hzero, not_false_eq_true, iff_true]
    omega

theorem wordSum_exchange {header : Buffer} (hlen : header.length = 20) :
    wordSum (setBytes (setBytes header 16 (getBytes header 12 4)) 12 (getBytes header 16 4)) =
      wordSum header := by
  have hsrc : (getBytes header 12 4).length = 4 := length_getBytes (by omega)
  have hdst : (getBytes header 16 4).length = 4 := length_getBytes (by omega)
  have hfirst : (setBytes header 16 (getBytes header 12 4)).length = 20 :=
    length_write hlen (by omega)
  have hset := wordSum_setBytes (by decide) (by omega)
    (by omega : 16 + (getBytes header 12 4).length ≤ header.length)
  have hset' := wordSum_setBytes (by decide) (by omega)
    (by omega : 12 + (getBytes header 16 4).length ≤
      (setBytes header 16 (getBytes header 12 4)).length)
  have hkept : getBytes (setBytes header 16 (getBytes header 12 4)) 12 4 = getBytes header 12 4 :=
    getBytes_setBytes_disjoint (by omega) (by omega)
  rw [hsrc] at hset
  rw [hdst, hkept] at hset'
  omega

theorem verifies_exchanged_iff {temp shost : Buffer} (hlen : 34 ≤ temp.length)
    (hshost : shost.length = 6) :
    let swapped := setBytes (setBytes temp 30 (getBytes temp 26 4)) 26 (getBytes temp 30 4)
    Verifies (setBytes (setBytes swapped 0 (getBytes swapped 6 6)) 6 shost) ↔ Verifies temp := by
  intro swapped
  have hsrc : getBytes temp 26 4 = getBytes (ipBytes temp) 12 4 := by
    rw [ipBytes, getBytes_getBytes (by decide)]
  have hdst : getBytes temp 30 4 = getBytes (ipBytes temp) 16 4 := by
    rw [ipBytes, getBytes_getBytes (by decide)]
  have hsrcLength : (getBytes temp 26 4).length = 4 := length_getBytes (by omega)
  have hdstLength : (getBytes temp 30 4).length = 4 := length_getBytes (by omega)
  have hfirst : (setBytes temp 30 (getBytes temp 26 4)).length = temp.length :=
    length_setBytes (by omega)
  have hswapped : swapped.length = temp.length := length_write hfirst (by omega)
  have hheader : ipBytes swapped = setBytes (setBytes (ipBytes temp) 16
      (getBytes (ipBytes temp) 12 4)) 12 (getBytes (ipBytes temp) 16 4) := by
    rw [ipBytes_setBytes_within (by omega) (by omega) (by omega),
      ipBytes_setBytes_within hlen (by omega) (by omega), ← hsrc, ← hdst]
  have hlength : (ipBytes temp).length = 20 := length_ipBytes hlen
  rw [verifies_readdressed_iff (by omega) hshost, Verifies, Verifies, cksum_twenty_iff hlength,
    cksum_twenty_iff (length_ipBytes (by omega)), hheader, wordSum_exchange hlength]

theorem verifies_echoReply_iff (iface : Interface) (timeExceed : Nat) {packet : Buffer}
    (hlen : 38 ≤ packet.length) (hverified : cksum (ipBytes packet) 20 = 0xffff) :
    Verifies (echoReply iface timeExceed (setBytes packet 36 (image16 0))) ↔ sumHigh packet ≠ 0 := by
  unfold echoReply
  dsimp only
  generalize htemp : setBytes (setBytes (setBytes packet 36 (image16 0)) 34 _) 36 _ = temp
  have hzeroed : (setBytes packet 36 (image16 0)).length = packet.length :=
    length_setBytes (by simpa using hlen)
  have hlength : temp.length = packet.length := by
    rw [← htemp]
    exact length_write (length_write hzeroed (by simp; omega)) (by simp; omega)
  have hheader : ipBytes temp = ipBytes packet := by
    rw [← htemp, ipBytes_setBytes_after (by rw [length_write hzeroed] <;> simp <;> omega) (by decide),
      ipBytes_setBytes_after (by simp; omega) (by decide),
      ipBytes_setBytes_after (by simpa using hlen) (by decide)]
  have hpatch : ∀ byte : UInt8, (setBytes temp 24 [byte]).length = packet.length := fun byte =>
    length_write hlength (by simp; omega)
  have hoverwrite : ∀ first second : UInt8,
      setBytes (setBytes temp 24 [first]) 24 [second] = setBytes temp 24 [second] :=
    fun first second => setBytes_setBytes_same rfl (by simp; omega)
  have hhigh : load8 ((ipBytes packet).drop 10) = sumHigh packet := by
    rw [ipBytes, getBytes, List.drop_take, load8_take _ (by decide), List.drop_drop, sumHigh]
  rw [hoverwrite]
  refine (verifies_exchanged_iff (by rw [hpatch]; omega) iface.addr.length_eq).trans ?_
  rw [Verifies, ipBytes_setBytes_within (by omega) (by decide) (by simp), ← ipBytes,
    ipBytes_setBytes_within (by omega) (by decide) (by simp), hheader, ← hhigh]
  exact patched_verifies_iff (length_ipBytes (by omega)) hverified

/-! ## What a frame makes the router send -/

theorem isIpv4_iff {frame : Buffer} :
    IsIpv4 frame ↔ load16 (getBytes frame 12 2) = ntohs ethertypeIp := by
  rw [IsIpv4, getBytes, load16_take _ (by decide)]
  rfl

theorem not_isIpv4_arpReply (iface : Interface) {eHdr : EthernetHdr} (arpHeader : ArpHdr)
    (h : eHdr.etherType = ntohs ethertypeArp) :
    ¬ IsIpv4 (assembleArpInterfaceReplyPacket iface eHdr arpHeader) := by
  rw [IsIpv4, assembleArpInterfaceReplyPacket, setBytes_headers, EthernetHdr.load_image, h]
  decide

theorem holding_echoReply (iface : Interface) (timeExceed : Nat) {packet : Buffer}
    (hlen : 38 ≤ packet.length) {start count : Nat} (hlow : 12 ≤ start)
    (hhigh : start + count ≤ 24) :
    Holding packet.length start (getBytes packet start count)
      (echoReply iface timeExceed (setBytes packet 36 (image16 0))) := by
  have hlength : (getBytes packet start count).length = count := length_getBytes (by omega)
  have hpacket : Holding packet.length start (getBytes packet start count) packet :=
    ⟨rfl, by rw [hlength]⟩
  have haddr := iface.addr.length_eq
  unfold echoReply
  dsimp only
  refine Holding.write (Holding.copy (Holding.copy (Holding.copy (Holding.write (Holding.write
    (Holding.write (Holding.write (Holding.write hpacket ?_ ?_) ?_ ?_) ?_ ?_) ?_ ?_) ?_ ?_)
    ?_ ?_ _ 26) ?_ ?_ _ 30) ?_ ?_ _ 6) ?_ ?_ <;>
    simp [hlength, haddr] <;> omega

theorem isIpv4_echoReply (iface : Interface) (timeExceed : Nat) {packet : Buffer}
    (hlen : 38 ≤ packet.length) (hip : IsIpv4 packet) :
    IsIpv4 (echoReply iface timeExceed (setBytes packet 36 (image16 0))) := by
  have hlength : (getBytes packet 12 2).length = 2 := length_getBytes (by omega)
  have hkept := (holding_echoReply iface timeExceed hlen (by decide) (by decide :
    12 + 2 ≤ 24)).kept
  rw [hlength] at hkept
  rw [isIpv4_iff, hkept]
  exact isIpv4_iff.mp hip

/-- The frame is answered by the echo branch. -/
def EchoAnswered (t : RouterTables) (packet : Buffer) (inIface : String) : Prop :=
  ∃ timeExceed, ForIcmp t packet inIface timeExceed ∧ 38 ≤ packet.length ∧ icmpType packet = 8

def SendsVerified (w w' : World) : Prop :=
  ∀ frame outIface purpose, .sent frame outIface purpose ∈ w.eventsTo w' →
    IsIpv4 frame → Verifies frame

section

variable {w : World} {packet : Buffer} {inIface : String}

theorem sendsVerified_of_not_sent {arp : ArpCache} {events : List Event}
    (h : ∀ frame outIface purpose, .sent frame outIface purpose ∉ events) :
    SendsVerified w (w.setArp arp events) :=
  forall_sent_of_not_sent (P := fun frame _ => IsIpv4 frame → Verifies frame) h

theorem sendsVerified_one_iff {ip : UInt32} {arp : ArpCache} {frame : Buffer} {outIface : String}
    {purpose : Purpose} :
    SendsVerified w (w.setArp arp ((w.learns packet ip).2 ++ [.sent frame outIface purpose])) ↔
      (IsIpv4 frame → Verifies frame) :=
  forall_sent_one_iff (P := fun frame _ => IsIpv4 frame → Verifies frame)

theorem Outcome.sendsVerified_iff (hqueue : QueueOk w.router.arp) {arp : ArpCache}
    {events : List Event} {fault : Option Fault} (h : Outcome w packet inIface arp events fault) :
    SendsVerified w (w.setArp arp events) ↔
      (EchoAnswered w.router.tables packet inIface → sumHigh packet ≠ 0) := by
  have hsilent : (∀ frame outIface purpose, .sent frame outIface purpose ∉ events) →
      ¬ EchoAnswered w.router.tables packet inIface →
      (SendsVerified w (w.setArp arp events) ↔
        (EchoAnswered w.router.tables packet inIface → sumHigh packet ≠ 0)) := fun hnone hnot =>
    iff_of_true (sendsVerified_of_not_sent hnone) fun hecho => absurd hecho hnot
  have hforeign : ¬ Accepted w.router.tables packet inIface →
      ¬ EchoAnswered w.router.tables packet inIface := by
    rintro hip ⟨_, hicmp, -⟩
    exact hip hicmp.accepted
  have htype : icmpType packet ≠ 8 → ¬ EchoAnswered w.router.tables packet inIface :=
    fun hne hecho => hne hecho.choose_spec.2.2
  have htransitNot : InTransit w.router.tables packet inIface →
      ¬ EchoAnswered w.router.tables packet inIface := by
    rintro htransit ⟨_, hicmp, -⟩
    exact hicmp.not_inTransit htransit
  cases h with
  | ignored hip _ _ => exact hsilent (by simp) (hforeign hip)
  | overrun _ hip _ _ => exact hsilent (by simp) (hforeign hip)
  | request harp _ => exact hsilent (not_sent_of_learns _) (hforeign harp.not_accepted)
  | requestForUs harp iface _ =>
      rw [sendsVerified_one_iff]
      exact iff_of_true (fun hip => absurd hip (not_isIpv4_arpReply iface _ harp.etherType))
        fun hecho => absurd hecho (hforeign harp.not_accepted)
  | replyKnown harp _ _ => exact hsilent (by simp) (hforeign harp.not_accepted)
  | reply harp hnew _ _ _ hsend =>
      refine iff_of_true (fun frame outIface purpose hsent _ => ?_)
        fun hecho => absurd hecho (hforeign harp.not_accepted)
      rw [World.eventsTo_setArp] at hsent
      have hreleased : .sent frame outIface purpose ∈ ((w.router.arp.insertArpEntry w.now
          (sourceMac packet) (arpHeader packet).arpSip).1.sendPendingPackets w.router.tables
          (arpHeader packet) (arpHeader packet).arpSip).2.1 := by
        rw [hsend]
        exact (List.mem_cons.mp hsent).resolve_left (by simp)
      obtain ⟨request, hrequest, pending, hpending, _, heq⟩ := sendPendingPackets_events hreleased
      have hqueued := hqueue request hrequest pending hpending
      rw [(Event.sent.inj heq).1, Verifies, ipBytes_releaseFrame, ← image_ipHeader hqueued.fits]
      exact hqueued.verified
  | icmpOverrun _ hicmp hshort =>
      refine hsilent (not_sent_of_learns _) ?_
      rintro ⟨_, -, hfits, hecho⟩
      rcases hshort with hshort | ⟨hne, -⟩
      · omega
      · exact hne hecho
  | echo timeExceed hicmp hfits htype iface _ =>
      rw [sendsVerified_one_iff]
      have hverified : cksum (ipBytes packet) 20 = 0xffff := by
        rw [← image_ipHeader (by omega)]
        exact hicmp.accepted.verified
      rw [← verifies_echoReply_iff iface timeExceed hfits hverified]
      exact ⟨fun h _ => h (isIpv4_echoReply iface timeExceed hfits hicmp.accepted.etherType),
        fun h _ => h ⟨timeExceed, hicmp, hfits, htype⟩⟩
  | icmpError hicmp hfits hne iface _ =>
      rw [sendsVerified_one_iff]
      exact iff_of_true (fun _ => verifies_icmpError _ iface hfits)
        fun hecho => absurd hecho (htype hne)
  | icmpIgnored hicmp hne => exact hsilent (not_sent_of_learns _) (htype hne)
  | localOther haccepted iface hiface hping hudp =>
      refine hsilent (not_sent_of_learns _) ?_
      rintro ⟨_, hicmp, -⟩
      rcases hicmp.protocol (by rw [hiface]; rfl) with ⟨hp, -⟩ | ⟨hp, -⟩
      · exact hping hp
      · exact hudp hp
  | noRoute htransit _ _ _ => exact hsilent (not_sent_of_learns _) (htransitNot htransit)
  | noHop htransit _ _ _ _ _ => exact hsilent (not_sent_of_learns _) (htransitNot htransit)
  | forwarded htransit _ _ _ _ iface _ hop _ =>
      rw [sendsVerified_one_iff]
      exact iff_of_true (fun _ => verifies_forwardedFrame packet iface hop.mac)
        fun hecho => absurd hecho (htransitNot htransit)
  | queueNull htransit _ _ => exact hsilent (not_sent_of_learns _) (htransitNot htransit)
  | queued htransit _ iface _ =>
      refine hsilent (fun frame outIface purpose hsent => ?_) (htransitNot htransit)
      exact not_sent_of_learns _ _ _ _ ((List.mem_append.mp hsent).resolve_right (by simp))

/-- Whatever the state of the router, as long as the queued frames were verified: all
IPv4 frames sent for a received frame have a valid header checksum if and only if it
is not answered as an echo request, or its checksum does not start with a zero byte. -/
theorem sends_verified_iff (hqueue : QueueOk w.router.arp) :
    SendsVerified w (w.receive packet inIface).1 ↔
      (EchoAnswered w.router.tables packet inIface → sumHigh packet ≠ 0) := by
  obtain ⟨arp, events, fault, hreceive, houtcome⟩ := receive_yields w packet inIface
  rw [hreceive]
  exact houtcome.sendsVerified_iff hqueue

end

theorem projectRouter_queueOk : QueueOk projectRouter.router.arp :=
  QueueOk.of_reachable projectRouter_reachable.system

theorem sendsVerified_ping_1 :
    SendsVerified projectRouter (projectRouter.receive (clientPing 1) "sw0-eth3").1 :=
  (sends_verified_iff projectRouter_queueOk).mpr fun _ => by decide +kernel

/-- The checksum of this request is 0x00e1, that of the reply reads 0xffe1. -/
theorem not_sendsVerified_ping_25470 :
    cksum (ipHeader (clientPing 25470)).image 20 = 0xffff ∧
      ¬ SendsVerified projectRouter (projectRouter.receive (clientPing 25470) "sw0-eth3").1 := by
  refine ⟨by decide +kernel, fun h => ?_⟩
  have hverifies := h
    (echoReply ⟨"sw0-eth3", projectMac 3, inetAton 10 0 1 1⟩ 0
      (setBytes (clientPing 25470) 36 (image16 0)))
    "sw0-eth3" .echoReply (by decide +kernel) (by unfold IsIpv4; decide +kernel)
  exact absurd hverifies (by unfold Verifies; decide +kernel)

end Cs118.Router
