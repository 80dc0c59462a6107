import Cs118.Lib.Bytes
/-!
# Ethernet, ARP, IPv4 and ICMP headers (`core/protocol.hpp`)

The packed structures the router copies out of and into its buffers.  Fields are
kept as the host loads them: numbers from the network are in network order
until `ntohs` is applied.
-/

namespace Cs118.Router

open Cs118.Lib.Bytes

structure EtherAddr where
  bytes : Buffer
  length_eq : bytes.length = 6
deriving DecidableEq, Repr

namespace EtherAddr

def load (bytes : Buffer) : EtherAddr := ⟨(bytes ++ List.replicate 6 0).take 6, by simp⟩

def broadcast : EtherAddr := ⟨List.replicate 6 255, by simp⟩

@[simp] theorem load_append (addr : EtherAddr) (rest : Buffer) : load (addr.bytes ++ rest) = addr := by
  have hlen := addr.length_eq
  rcases addr with ⟨bytes, _⟩
  simp only [load, EtherAddr.mk.injEq, List.append_assoc]
  exact List.take_left' hlen

end EtherAddr

structure EthernetHdr where
  etherDhost : EtherAddr
  etherShost : EtherAddr
  etherType : UInt16
deriving DecidableEq, Repr

structure ArpHdr where
  arpHrd : UInt16
  arpPro : UInt16
  arpHln : UInt8
  arpPln : UInt8
  arpOp : UInt16
  arpSha : EtherAddr
  arpSip : UInt32
  arpTha : EtherAddr
  arpTip : UInt32
deriving DecidableEq, Repr

/-- `struct ip_hdr`.  `ip_v` and `ip_hl` share a byte that no code takes apart. -/
structure IpHdr where
  ipVHl : UInt8
  ipTos : UInt8
  ipLen : UInt16
  ipId : UInt16
  ipOff : UInt16
  ipTtl : UInt8
  ipP : UInt8
  ipSum : UInt16
  ipSrc : UInt32
  ipDst : UInt32
deriving DecidableEq, Repr

structure IcmpHdr where
  icmpType : UInt8
  icmpCode : UInt8
  icmpSum : UInt16
deriving DecidableEq, Repr

def load8 (bytes : Buffer) : UInt8 := bytes.headD 0

namespace EthernetHdr

def image (h : EthernetHdr) : Buffer := h.etherDhost.bytes ++ (h.etherShost.bytes ++ image16 h.etherType)

def load (bytes : Buffer) : EthernetHdr :=
  ⟨EtherAddr.load bytes, EtherAddr.load (bytes.drop 6), load16 (bytes.drop 12)⟩

@[simp] theorem length_image (h : EthernetHdr) : h.image.length = 14 := by
  simp [image, h.etherDhost.length_eq, h.etherShost.length_eq]

end EthernetHdr

namespace ArpHdr

def image (h : ArpHdr) : Buffer :=
  image16 h.arpHrd ++ (image16 h.arpPro ++ (h.arpHln :: h.arpPln :: (image16 h.arpOp ++
    (h.arpSha.bytes ++ (image32 h.arpSip ++ (h.arpTha.bytes ++ image32 h.arpTip))))))

def load (bytes : Buffer) : ArpHdr :=
  { arpHrd := load16 bytes
    arpPro := load16 (bytes.drop 2)
    arpHln := load8 (bytes.drop 4)
    arpPln := load8 (bytes.drop 5)
    arpOp := load16 (bytes.drop 6)
    arpSha := EtherAddr.load (bytes.drop 8)
    arpSip := load32 (bytes.drop 14)
    arpTha := EtherAddr.load (bytes.drop 18)
    arpTip := load32 (bytes.drop 24) }

@[simp] theorem length_image (h : ArpHdr) : h.image.length = 28 := by
  simp [image, h.arpSha.length_eq, h.arpTha.length_eq]

end ArpHdr

namespace IpHdr

def front (h : IpHdr) : Buffer :=
  h.ipVHl :: h.ipTos :: (image16 h.ipLen ++ (image16 h.ipId ++ (image16 h.ipOff ++
    [h.ipTtl, h.ipP])))

def image (h : IpHdr) : Buffer :=
  h.front ++ (image16 h.ipSum ++ (image32 h.ipSrc ++ image32 h.ipDst))

def load (bytes : Buffer) : IpHdr :=
  { ipVHl := load8 bytes
    ipTos := load8 (bytes.drop 1)
    ipLen := load16 (bytes.drop 2)
    ipId := load16 (bytes.drop 4)
    ipOff := load16 (bytes.drop 6)
    ipTtl := load8 (bytes.drop 8)
    ipP := load8 (bytes.drop 9)
    ipSum := load16 (bytes.drop 10)
    ipSrc := load32 (bytes.drop 12)
    ipDst := load32 (bytes.drop 16) }

@[simp] theorem length_front (h : IpHdr) : h.front.length = 10 := by simp [front]

@[simp] theorem length_image (h : IpHdr) : h.image.length = 20 := by simp [image]

theorem image_load {bytes : Buffer} (h : bytes.length = 20) : (load bytes).image = bytes := by
  rcases bytes with _ | ⟨b0, _ | ⟨b1, _ | ⟨b2, _ | ⟨b3, _ | ⟨b4, _ | ⟨b5, _ | ⟨b6, _ | ⟨b7, _ | ⟨b8,
    _ | ⟨b9, rest⟩⟩⟩⟩⟩⟩⟩⟩⟩⟩ <;> simp at h
  have h2 : ∀ x y (more : Buffer), image16 (load16 (x :: y :: more)) = [x, y] := fun x y more => by
    rw [image16_load16 (by simp)]
    rfl
  have hsum : image16 (load16 rest) = rest.take 2 := image16_load16 (by omega)
  have hsrc : image32 (load32 (rest.drop 2)) = (rest.drop 2).take 4 :=
    image32_load32 (by simp; omega)
  have hdst : image32 (load32 (rest.drop 6)) = rest.drop 6 := by
    rw [image32_load32 (by simp; omega), List.take_of_length_le (by simp; omega)]
  have hjoin : rest.take 2 ++ ((rest.drop 2).take 4 ++ rest.drop 6) = rest := by
    have := List.take_append_drop 4 (rest.drop 2)
    rw [List.drop_drop] at this
    rw [this, List.take_append_drop]
  simp only [load, image, front, load8, List.drop_zero, List.drop_succ_cons, List.headD_cons, h2,
    hsum, hsrc, hdst, List.cons_append, List.nil_append, hjoin]

end IpHdr

namespace IcmpHdr

def load (bytes : Buffer) : IcmpHdr :=
  ⟨load8 bytes, load8 (bytes.drop 1), load16 (bytes.drop 2)⟩

end IcmpHdr

/-! ## Ether types and opcodes, as the code writes them -/

def ethertypeArp : UInt16 := 0x0806
def ethertypeIp : UInt16 := 0x0800
def arpOpRequest : UInt16 := 0x0001
def arpOpReply : UInt16 := 0x0002

end Cs118.Router
