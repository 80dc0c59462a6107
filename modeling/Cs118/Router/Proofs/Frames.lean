import Cs118.Router.SimpleRouter
/-!
# The frames the router builds

Each of them is cut into its Ethernet header, its IP header and the rest.
-/

namespace Cs118.Router

open Cs118.Lib.Bytes
open Cs118.Lib.OnesComplement

def ipBytes (frame : Buffer) : Buffer := getBytes frame 14 20

theorem length_ipBytes {frame : Buffer} (h : 34 ≤ frame.length) : (ipBytes frame).length = 20 :=
  length_getBytes h

def ipHeader (packet : Buffer) : IpHdr := IpHdr.load (packet.drop 14)

section ipBytes

variable {frame bytes : Buffer} {offset : Nat}

theorem ipBytes_setBytes_before (hlen : 34 ≤ frame.length) (h : offset + bytes.length ≤ 14) :
    ipBytes (setBytes frame offset bytes) = ipBytes frame :=
  getBytes_setBytes_disjoint (by omega) (by omega)

theorem ipBytes_setBytes_after (hfits : offset + bytes.length ≤ frame.length) (h : 34 ≤ offset) :
    ipBytes (setBytes frame offset bytes) = ipBytes frame :=
  getBytes_setBytes_disjoint hfits (by omega)

theorem ipBytes_setBytes_within (hlen : 34 ≤ frame.length) (hlow : 14 ≤ offset)
    (hhigh : offset + bytes.length ≤ 34) :
    ipBytes (setBytes frame offset bytes) = setBytes (ipBytes frame) (offset - 14) bytes :=
  getBytes_setBytes_within hlen hlow hhigh

end ipBytes

/-! ## Headers in memory -/

theorem load8_take (bytes : Buffer) {n : Nat} (h : 0 < n) : load8 (bytes.take n) = load8 bytes := by
  cases bytes with
  | nil => simp
  | cons byte bytes =>
      obtain ⟨n, rfl⟩ := Nat.exists_eq_succ_of_ne_zero (Nat.ne_of_gt h)
      rfl

theorem load16_take (bytes : Buffer) {n : Nat} (h : 2 ≤ n) :
    load16 (bytes.take n) = load16 bytes := by
  rw [load16, load16, List.take_take, Nat.min_eq_left h]

theorem load32_take (bytes : Buffer) {n : Nat} (h : 4 ≤ n) :
    load32 (bytes.take n) = load32 bytes := by
  rw [load32, load32, List.take_take, Nat.min_eq_left h]

theorem IpHdr.load_take (bytes : Buffer) : IpHdr.load (bytes.take 20) = IpHdr.load bytes := by
  simp [IpHdr.load, List.drop_take, load8_take, load16_take, load32_take]

theorem image_ipHeader {packet : Buffer} (h : 34 ≤ packet.length) :
    (ipHeader packet).image = ipBytes packet := by
  rw [ipHeader, ← IpHdr.load_take, IpHdr.image_load (by simp; omega)]
  rfl

theorem ttl_le_zero_iff (ttl : UInt8) : ttl - 1 ≤ 0 ↔ ttl = 1 := by
  rw [UInt8.le_iff_toNat_le, ← UInt8.toNat_inj, UInt8.toNat_sub]
  have := ttl.toNat_lt
  simp only [UInt8.reduceToNat]
  omega

theorem IpHdr.load_image (h : IpHdr) (rest : Buffer) : IpHdr.load (h.image ++ rest) = h := by
  rcases h with ⟨vhl, tos, len, id, off, ttl, p, sum, src, dst⟩
  simp [IpHdr.load, IpHdr.image, IpHdr.front, load8, List.drop_append, List.drop_eq_nil_of_le]

@[simp] theorem EtherAddr.load_bytes_self (addr : EtherAddr) : EtherAddr.load addr.bytes = addr := by
  simpa using EtherAddr.load_append addr []

theorem EthernetHdr.load_image (h : EthernetHdr) (rest : Buffer) :
    EthernetHdr.load (h.image ++ rest) = h := by
  rcases h with ⟨dhost, shost, type⟩
  have hdhost := dhost.length_eq
  have hshost := shost.length_eq
  simp [EthernetHdr.load, EthernetHdr.image, List.drop_append, List.drop_eq_nil_of_le, hdhost,
    hshost]

theorem ArpHdr.load_image (h : ArpHdr) (rest : Buffer) : ArpHdr.load (h.image ++ rest) = h := by
  rcases h with ⟨hrd, pro, hln, pln, op, sha, sip, tha, tip⟩
  have hsha := sha.length_eq
  have htha := tha.length_eq
  simp [ArpHdr.load, ArpHdr.image, load8, List.drop_append, List.drop_eq_nil_of_le, hsha, htha]

/-! ## Assembled frames -/

theorem setBytes_zero (buffer bytes : Buffer) :
    setBytes buffer 0 bytes = bytes ++ buffer.drop bytes.length := by
  simp [setBytes]

theorem setBytes_append (front buffer bytes : Buffer) {offset : Nat} (h : offset = front.length) :
    setBytes (front ++ buffer) offset bytes = front ++ setBytes buffer 0 bytes := by
  subst h
  simp [setBytes, List.drop_append]

theorem releaseFrame_eq (reply : ArpHdr) (packet : Buffer) :
    releaseFrame reply packet =
      EthernetHdr.image ⟨reply.arpSha, reply.arpTha, htons ethertypeIp⟩ ++ packet.drop 14 := by
  have hpayload : getBytes packet 14 (packet.length - 14) = packet.drop 14 :=
    List.take_of_length_le (by simp)
  simp only [releaseFrame, hpayload]
  rw [setBytes_zero, setBytes_append _ _ _ (by simp), setBytes_zero]
  simp

theorem setBytes_headers (eHdr : EthernetHdr) (arpHeader : ArpHdr) :
    setBytes (setBytes (List.replicate 42 0) 0 eHdr.image) 14 arpHeader.image =
      eHdr.image ++ arpHeader.image := by
  rw [setBytes_zero, setBytes_append _ _ _ (by simp), setBytes_zero]
  simp

theorem assembleIPPacket_eq (packet : Buffer) (ipHeader : IpHdr) (eHdr : EthernetHdr) :
    assembleIPPacket packet ipHeader eHdr = eHdr.image ++ (ipHeader.image ++ packet.drop 34) := by
  rw [assembleIPPacket, setBytes_zero, setBytes_append _ _ _ (by simp), setBytes_zero]
  simp

theorem drop_releaseFrame (reply : ArpHdr) (packet : Buffer) :
    (releaseFrame reply packet).drop 14 = packet.drop 14 := by
  rw [releaseFrame_eq, List.drop_left' (by simp)]

theorem length_releaseFrame (reply : ArpHdr) {packet : Buffer} (h : 14 ≤ packet.length) :
    (releaseFrame reply packet).length = packet.length := by
  rw [releaseFrame_eq]
  simp
  omega

theorem ipHeader_releaseFrame (reply : ArpHdr) (packet : Buffer) :
    ipHeader (releaseFrame reply packet) = ipHeader packet := by
  rw [ipHeader, drop_releaseFrame, ipHeader]

theorem ipBytes_releaseFrame (reply : ArpHdr) (packet : Buffer) :
    ipBytes (releaseFrame reply packet) = ipBytes packet := by
  rw [ipBytes, getBytes, drop_releaseFrame]
  rfl

theorem ipHeader_assembleIPPacket (packet : Buffer) (h : IpHdr) (eHdr : EthernetHdr) :
    ipHeader (assembleIPPacket packet h eHdr) = h := by
  rw [ipHeader, assembleIPPacket_eq, List.drop_left' (by simp), IpHdr.load_image]

theorem ipBytes_assembleIPPacket (packet : Buffer) (h : IpHdr) (eHdr : EthernetHdr) :
    ipBytes (assembleIPPacket packet h eHdr) = h.image := by
  rw [ipBytes, getBytes, assembleIPPacket_eq, List.drop_left' (by simp), List.take_left' (by simp)]

/-! ## Writes to one field of a header -/

section

variable (h : IpHdr)

theorem image_ipLen (len : UInt16) :
    ({ h with ipLen := len } : IpHdr).image = setBytes h.image 2 (image16 len) := by
  simp [IpHdr.image, IpHdr.front, setBytes, image16, image32, leBytes]

theorem image_ipTtl (ttl : UInt8) :
    ({ h with ipTtl := ttl } : IpHdr).image = setBytes h.image 8 [ttl] := by
  simp [IpHdr.image, IpHdr.front, setBytes, image16, image32, leBytes]

theorem image_ipP (protocol : UInt8) :
    ({ h with ipP := protocol } : IpHdr).image = setBytes h.image 9 [protocol] := by
  simp [IpHdr.image, IpHdr.front, setBytes, image16, image32, leBytes]

theorem image_ipSum (sum : UInt16) :
    ({ h with ipSum := sum } : IpHdr).image = setBytes h.image 10 (image16 sum) := by
  simp [IpHdr.image, IpHdr.front, setBytes, image16, image32, leBytes]

theorem image_ipSrc (src : UInt32) :
    ({ h with ipSrc := src } : IpHdr).image = setBytes h.image 12 (image32 src) := by
  simp [IpHdr.image, IpHdr.front, setBytes, image16, image32, leBytes]

theorem image_ipDst (dst : UInt32) :
    ({ h with ipDst := dst } : IpHdr).image = setBytes h.image 16 (image32 dst) := by
  simp [IpHdr.image, IpHdr.front, setBytes, image16, image32, leBytes]

end

/-- A frame of `n` bytes with the IPv4 header `h`. -/
structure Carries (n : Nat) (h : IpHdr) (frame : Buffer) : Prop where
  length : frame.length = n
  header : ipBytes frame = h.image

namespace Carries

variable {n offset : Nat} {h h' : IpHdr} {frame bytes : Buffer}

theorem ipHeader_eq (hframe : Carries n h frame) : ipHeader frame = h := by
  rw [ipHeader, ← IpHdr.load_take]
  show IpHdr.load (ipBytes frame) = h
  rw [hframe.header]
  simpa using IpHdr.load_image h []

theorem field (hframe : Carries n h frame) (hn : 34 ≤ n) (hlow : 14 ≤ offset)
    (hhigh : offset + bytes.length ≤ 34) (hfield : h'.image = setBytes h.image (offset - 14) bytes) :
    Carries n h' (setBytes frame offset bytes) := by
  have hlen := hframe.length
  refine ⟨(length_setBytes (by omega)).trans hlen, ?_⟩
  rw [ipBytes_setBytes_within (by omega) hlow hhigh, hframe.header, hfield]

theorem apart (hframe : Carries n h frame) (hn : 34 ≤ n) (hfits : offset + bytes.length ≤ n)
    (happart : offset + bytes.length ≤ 14 ∨ 34 ≤ offset) :
    Carries n h (setBytes frame offset bytes) := by
  have hlen := hframe.length
  refine ⟨(length_setBytes (by omega)).trans hlen, ?_⟩
  rcases happart with hbefore | hafter
  · rw [ipBytes_setBytes_before (by omega) hbefore, hframe.header]
  · rw [ipBytes_setBytes_after (by omega) hafter, hframe.header]

theorem source (hframe : Carries n h frame) : getBytes frame 26 4 = image32 h.ipSrc := by
  have hsource : getBytes (ipBytes frame) 12 4 = getBytes frame 26 4 := by
    rw [ipBytes, getBytes_getBytes (by decide)]
  have himage : h.image = (h.front ++ image16 h.ipSum) ++ (image32 h.ipSrc ++ image32 h.ipDst) := by
    rw [IpHdr.image, List.append_assoc]
  rw [← hsource, hframe.header, himage, getBytes, List.drop_left' (by simp),
    List.take_left' (by simp)]

end Carries

/-- A frame with an IPv4 header, its Ethernet type and what follows the header. -/
structure Answer (n : Nat) (type message : Buffer) (h : IpHdr) (frame : Buffer) : Prop where
  carries : Carries n h frame
  type : getBytes frame 12 2 = type
  message : frame.drop 34 = message

namespace Answer

variable {n offset : Nat} {type message bytes frame : Buffer} {h h' : IpHdr}

theorem field (hframe : Answer n type message h frame) (offset : Nat) (hn : 34 ≤ n)
    (hlow : 14 ≤ offset) (hhigh : offset + bytes.length ≤ 34)
    (hfield : h'.image = setBytes h.image (offset - 14) bytes) :
    Answer n type message h' (setBytes frame offset bytes) := by
  have hlen := hframe.carries.length
  refine ⟨hframe.carries.field hn hlow hhigh hfield, ?_, ?_⟩
  · rw [getBytes_setBytes_disjoint (by omega) (by omega), hframe.type]
  · rw [drop_setBytes_before (by omega) hhigh, hframe.message]

theorem address (hframe : Answer n type message h frame) (offset : Nat) (hn : 34 ≤ n)
    (hhigh : offset + bytes.length ≤ 12) :
    Answer n type message h (setBytes frame offset bytes) := by
  have hlen := hframe.carries.length
  refine ⟨hframe.carries.apart hn (by omega) (by omega), ?_, ?_⟩
  · rw [getBytes_setBytes_disjoint (by omega) (by omega), hframe.type]
  · rw [drop_setBytes_before (by omega) (by omega), hframe.message]

/-- The writes of the IP layer: protocol, TTL, length, destination, source, checksum. -/
theorem answerHeader {temp : Buffer} (htemp : Answer 70 type message h temp) (len : UInt16)
    (src : UInt32) :
    let short := setBytes (setBytes (setBytes (setBytes temp 24 (image16 0)) 23 [0x01]) 22 [0x40])
      16 (image16 len)
    let addressed := setBytes (setBytes short 30 (getBytes short 26 4)) 26 (image32 src)
    Answer 70 type message
      (updateSum { h with
        ipLen := len, ipTtl := 0x40, ipP := 0x01, ipSrc := src, ipDst := h.ipSrc })
      (setBytes addressed 24 (image16 (cksum (getBytes addressed 14 20) 20))) := by
  intro short addressed
  have hcleared := htemp.field 24 (by decide) (by decide) (by simp) (image_ipSum h 0)
  have hicmp := hcleared.field 23 (by decide) (by decide) (by simp)
    (image_ipP { h with ipSum := 0 } 0x01)
  have httl := hicmp.field 22 (by decide) (by decide) (by simp)
    (image_ipTtl { h with ipSum := 0, ipP := 0x01 } 0x40)
  have hshort := httl.field 16 (by decide) (by decide) (by simp)
    (image_ipLen { h with ipSum := 0, ipP := 0x01, ipTtl := 0x40 } len)
  have hsource : getBytes short 26 4 = image32 h.ipSrc := hshort.carries.source
  have hback := hshort.field 30 (by decide) (by decide) (by simp)
    (image_ipDst { h with ipSum := 0, ipP := 0x01, ipTtl := 0x40, ipLen := len } h.ipSrc)
  have haddressed : Answer 70 type message { h with
      ipLen := len, ipTtl := 0x40, ipP := 0x01, ipSum := 0, ipSrc := src, ipDst := h.ipSrc }
      addressed := by
    have hfrom := hback.field 26 (by decide) (by decide) (by simp)
      (image_ipSrc { h with
        ipSum := 0, ipP := 0x01, ipTtl := 0x40, ipLen := len, ipDst := h.ipSrc } src)
    rwa [← hsource] at hfrom
  have hheader : getBytes addressed 14 20 = _ := haddressed.carries.header
  rw [hheader]
  exact haddressed.field 24 (by decide) (by decide) (by simp) (image_ipSum _ _)

end Answer

/-! ## The ICMP error -/

section

variable (t : RouterTables) (iface : Interface) (packet : Buffer)

def forUs : Bool := (t.findIfaceByIp (ipHeader packet).ipDst).isSome

def errorSource : UInt32 := if forUs t packet then (ipHeader packet).ipDst else iface.ip

def errorHeader : IpHdr :=
  updateSum { ipHeader packet with
    ipLen := htons (ntohs (ipHeader packet).ipLen - 0x04)
    ipTtl := 0x40
    ipP := 0x01
    ipSrc := errorSource t iface packet
    ipDst := (ipHeader packet).ipSrc }

def errorMessage : Buffer :=
  (if forUs t packet then 0x03 else 0x0b) :: (if forUs t packet then 0x03 else 0x00) ::
    (List.replicate 6 0 ++ getBytes packet 14 28)

variable {t iface packet}

theorem length_errorMessage (h : 42 ≤ packet.length) : (errorMessage t packet).length = 36 := by
  have hquote : (getBytes packet 14 28).length = 28 := length_getBytes h
  simp [errorMessage, hquote]

theorem icmpError_front {zeros : Buffer} (hlength : zeros.length = 70)
    (hzeros : zeros.drop 34 = List.replicate 36 0) (h : 42 ≤ packet.length) (type code : UInt8) :
    let quoted := setBytes (setBytes zeros 0 (getBytes packet 0 34)) 42 (getBytes packet 14 28)
    let written := setBytes (setBytes quoted 34 [type]) 35 [code]
    Carries 70 (ipHeader packet) written ∧ getBytes written 12 2 = getBytes packet 12 2 ∧
      written.drop 34 = type :: code :: (List.replicate 6 0 ++ getBytes packet 14 28) := by
  intro quoted written
  have hfront : (getBytes packet 0 34).length = 34 := length_getBytes (by omega)
  have hquote : (getBytes packet 14 28).length = 28 := length_getBytes h
  have hcopied := getBytes_setBytes_same (by omega : 0 + (getBytes packet 0 34).length ≤ zeros.length)
  rw [hfront] at hcopied
  have hpart : ∀ offset size, offset + size ≤ 34 →
      getBytes (setBytes zeros 0 (getBytes packet 0 34)) offset size =
        getBytes packet offset size := by
    intro offset size hsize
    have hinner : getBytes (getBytes (setBytes zeros 0 (getBytes packet 0 34)) 0 34) offset size =
        getBytes _ (0 + offset) size := getBytes_getBytes hsize
    rw [hcopied, getBytes_getBytes hsize, Nat.zero_add] at hinner
    exact hinner.symm
  have hcarries : Carries 70 (ipHeader packet) (setBytes zeros 0 (getBytes packet 0 34)) :=
    ⟨(length_setBytes (by omega)).trans hlength,
      (hpart 14 20 (by decide)).trans (image_ipHeader (by omega)).symm⟩
  have hlen := hcarries.length
  have hquoted : Carries 70 (ipHeader packet) quoted :=
    hcarries.apart (by decide) (by omega) (by omega)
  have hquotedLen := hquoted.length
  have htyped : Carries 70 (ipHeader packet) (setBytes quoted 34 [type]) :=
    hquoted.apart (by decide) (by simp) (by simp)
  have htypedLen := htyped.length
  refine ⟨htyped.apart (by decide) (by simp) (by simp), ?_, ?_⟩
  · rw [getBytes_setBytes_disjoint (by simp [htypedLen]) (by simp),
      getBytes_setBytes_disjoint (by simp [hquotedLen]) (by simp),
      getBytes_setBytes_disjoint (by omega) (by omega), hpart 12 2 (by decide)]
  · rw [drop_setBytes_after (by simp [htypedLen]) (by simp),
      drop_setBytes_after (by simp [hquotedLen]) (by simp),
      drop_setBytes_after (by omega) (by omega), drop_setBytes_before (by omega) (by omega), hzeros]
    simp [setBytes, hquote, List.replicate]

/-- The ICMP error, part by part. -/
theorem icmpError_answer (h : 42 ≤ packet.length) :
    Answer 70 (getBytes packet 12 2)
      (setBytes (errorMessage t packet) 2 (image16 (cksum (errorMessage t packet) 36)))
      (errorHeader t iface packet) (icmpError t iface packet) := by
  have hzeros : (List.replicate 70 (0 : UInt8)).drop 34 = List.replicate 36 0 := by simp
  have hdst : load32 (packet.drop 30) = (ipHeader packet).ipDst := by
    show _ = load32 ((packet.drop 14).drop 16)
    rw [List.drop_drop]
  obtain ⟨hwritten, htype, hmessage⟩ := icmpError_front (List.length_replicate) hzeros h
    (if forUs t packet then 0x03 else 0x0b) (if forUs t packet then 0x03 else 0x00)
  unfold icmpError
  dsimp only
  rw [hdst, ← forUs]
  generalize setBytes (setBytes _ 34 _) 35 _ = written at hwritten htype hmessage ⊢
  rw [← errorMessage] at hmessage
  have hlen : ((written.length : Int) - 34) = 36 := by
    rw [hwritten.length]
    rfl
  rw [hmessage, hlen]
  have hwrittenLen := hwritten.length
  have hsummed : Answer 70 (getBytes packet 12 2) (setBytes (errorMessage t packet) 2
      (image16 (cksum (errorMessage t packet) 36))) (ipHeader packet)
      (setBytes written 36 (image16 (cksum (errorMessage t packet) 36))) := by
    refine ⟨hwritten.apart (by decide) (by simp) (by simp), ?_, ?_⟩
    · rw [getBytes_setBytes_disjoint (by simp [hwrittenLen]) (by simp), htype]
    · rw [drop_setBytes_after (by simp [hwrittenLen]) (by simp), hmessage]
  generalize setBytes written 36 _ = temp at hsummed ⊢
  have hlength : load16 (temp.drop 16) = (ipHeader packet).ipLen := by
    have hheader := congrArg IpHdr.ipLen hsummed.carries.ipHeader_eq
    have hload : (ipHeader temp).ipLen = load16 ((temp.drop 14).drop 2) := rfl
    rwa [hload, List.drop_drop] at hheader
  rw [hlength]
  have haddr := iface.addr.length_eq
  have hdhost : ∀ buffer, (getBytes buffer 6 6).length ≤ 6 := fun _ => List.length_take_le _ _
  refine Answer.address (Answer.address (hsummed.answerHeader _ _) 0 (by decide) ?_) 6
    (by decide) (by omega)
  rw [Nat.zero_add]
  exact (hdhost _).trans (by decide)

end

end Cs118.Router
