import Cs118.Lib.Bytes
/-!
# The Confundo datagram

Both endpoints declare the same `header` and `packet`.  A datagram is the
memory image of a `packet`: the twelve header bytes, in network order when the
sender has called `htonl`/`htons`, and then payload bytes.
-/

namespace Cs118.Confundo

open Cs118.Lib.Bytes

structure Header where
  seq : UInt32
  ack : UInt32
  id : UInt16
  flags : UInt16
deriving DecidableEq, Repr

/-- `struct packet`, as the receiver holds it: 512 bytes of `data`, of which the
datagram may have filled fewer. -/
structure Packet where
  packHeader : Header
  data : Buffer
deriving DecidableEq, Repr

def synFlag : UInt16 := 2
def ackFlag : UInt16 := 4
def finFlag : UInt16 := 1
def synAckFlag : UInt16 := 6
def ackFinFlag : UInt16 := 5

def dataSize : Nat := 512
def packetSize : Nat := 524

/-- The modulus of the sequence space: `max seq num is 102400`. -/
def seqModulus : Nat := 102401

namespace Header

def hton (h : Header) : Header := ⟨htonl h.seq, htonl h.ack, htons h.id, htons h.flags⟩

/-- `ntoh_reorder`. -/
def ntoh (h : Header) : Header := ⟨ntohl h.seq, ntohl h.ack, ntohs h.id, ntohs h.flags⟩

def image (h : Header) : Buffer :=
  image32 h.seq ++ (image32 h.ack ++ (image16 h.id ++ image16 h.flags))

def load (bytes : Buffer) : Header :=
  ⟨load32 bytes, load32 (bytes.drop 4), load16 (bytes.drop 8), load16 (bytes.drop 10)⟩

def wire (h : Header) : Buffer := h.hton.image

@[simp] theorem ntoh_hton (h : Header) : h.hton.ntoh = h := by simp [hton, ntoh]

@[simp] theorem length_image (h : Header) : h.image.length = 12 := by simp [image]

@[simp] theorem length_wire (h : Header) : h.wire.length = 12 := by simp [wire]

@[simp] theorem load_image (h : Header) (rest : Buffer) : load (h.image ++ rest) = h := by
  have hdrop4 : (h.image ++ rest).drop 4 =
      image32 h.ack ++ (image16 h.id ++ (image16 h.flags ++ rest)) := by
    rw [image]
    simp only [List.append_assoc]
    exact List.drop_left' (length_image32 _)
  have hdrop8 : (h.image ++ rest).drop 8 = image16 h.id ++ (image16 h.flags ++ rest) := by
    rw [show (8 : Nat) = 4 + 4 from rfl, ← List.drop_drop, hdrop4]
    exact List.drop_left' (length_image32 _)
  have hdrop10 : (h.image ++ rest).drop 10 = image16 h.flags ++ rest := by
    rw [show (10 : Nat) = 8 + 2 from rfl, ← List.drop_drop, hdrop8]
    exact List.drop_left' (length_image16 _)
  rw [load, hdrop4, hdrop8, hdrop10]
  simp [image]

end Header

/-- `set_header` followed by the payload that `sendto` is given. -/
def datagram (h : Header) (payload : Buffer) : Buffer := h.wire ++ payload

/-- The header in the memory that a receiver has read a datagram into, after
`ntoh_reorder`. -/
def readHeader (bytes : Buffer) : Header := (Header.load bytes).ntoh

@[simp] theorem readHeader_datagram (h : Header) (payload : Buffer) :
    readHeader (datagram h payload) = h := by
  simp [readHeader, datagram, Header.wire]

@[simp] theorem length_datagram (h : Header) (payload : Buffer) :
    (datagram h payload).length = 12 + payload.length := by
  simp [datagram]

theorem readHeader_image (h : Header) (payload : Buffer) :
    readHeader (h.image ++ payload) = h.ntoh := by
  simp [readHeader]

/-- `memset` of `buf` and then `recvfrom` into its 524 bytes. -/
def receiveBuffer (bytes : Buffer) : Buffer :=
  bytes.take packetSize ++ List.replicate (packetSize - bytes.length) 0

def receivedBytes (bytes : Buffer) : Nat := min bytes.length packetSize

/-- `buf` once its header is in host order. -/
def receivePacket (bytes : Buffer) : Packet :=
  ⟨readHeader (receiveBuffer bytes), (receiveBuffer bytes).drop 12⟩

/-- A datagram that fits arrives with its header and its payload, padded with
zeros. -/
theorem receivePacket_datagram (h : Header) {payload : Buffer}
    (hfits : payload.length ≤ dataSize) :
    receivePacket (datagram h payload) =
      ⟨h, payload ++ List.replicate (dataSize - payload.length) 0⟩ := by
  have htake : (datagram h payload).take packetSize = datagram h payload := by
    apply List.take_of_length_le
    rw [length_datagram]
    unfold dataSize at hfits
    unfold packetSize
    omega
  have hpad : packetSize - (datagram h payload).length = dataSize - payload.length := by
    rw [length_datagram]
    unfold packetSize dataSize
    omega
  have hbuffer : receiveBuffer (datagram h payload) =
      datagram h (payload ++ List.replicate (dataSize - payload.length) 0) := by
    rw [receiveBuffer, htake, hpad]
    simp [datagram]
  rw [receivePacket, hbuffer, readHeader_datagram]
  simp [datagram]

theorem receivedBytes_datagram (h : Header) {payload : Buffer}
    (hfits : payload.length ≤ dataSize) :
    receivedBytes (datagram h payload) = 12 + payload.length := by
  unfold dataSize at hfits
  simp [receivedBytes, packetSize]
  omega

end Cs118.Confundo
