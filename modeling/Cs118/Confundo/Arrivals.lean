import Cs118.Lib.Machine
import Cs118.Confundo.Server
/-!
# The server and whatever comes in

The server's socket is an IPv4 one, so every sender has an IPv4 address.  Nothing
else is assumed about the datagrams: neither who sends them and in which order,
nor what is in them.
-/

namespace Cs118.Confundo

open Cs118.Lib.Bytes
open Cs118.Lib.Run

structure Arrival where
  sender : Nat
  bytes : Buffer
deriving DecidableEq, Repr

namespace Arrival

def addr (a : Arrival) : SockAddr := ⟨afInet, a.sender⟩

def packet (a : Arrival) : Packet := receivePacket a.bytes

def header (a : Arrival) : Header := a.packet.packHeader

/-- What the data branch writes to the file. -/
def payload (a : Arrival) : Buffer := a.packet.data.take (receivedBytes a.bytes - 12)

def isSyn (a : Arrival) : Prop := a.header.flags = synFlag

def isData (a : Arrival) : Prop := a.header.flags = ackFlag ∨ a.header.flags = 0

def isFin (a : Arrival) : Prop := a.header.flags = finFlag

instance : DecidablePred isSyn := fun a => inferInstanceAs (Decidable (a.header.flags = synFlag))

instance : DecidablePred isData := fun a =>
  inferInstanceAs (Decidable (a.header.flags = ackFlag ∨ a.header.flags = 0))

instance : DecidablePred isFin := fun a => inferInstanceAs (Decidable (a.header.flags = finFlag))

end Arrival

namespace Server

def slot (s : Server) (i : Fin 10) : Connection :=
  s.allConnection.get ⟨i, by rw [s.size_eq]; exact i.isLt⟩

def setSlot (s : Server) (i : Fin 10) (c : Connection) : Server :=
  ⟨s.allConnection.set i c, by simp [s.size_eq]⟩

def handle (s : Server) (a : Arrival) : Server × List Send := s.receive a.addr a.bytes

def step (s : Server) (a : Arrival) : Option Server := some (s.handle a).1

def Reachable (s : Server) : Prop := Reach Server.step (fun _ => True) Server.start s

def InUse (s : Server) (i : Fin 10) : Prop := (s.slot i).packHeader.id ≠ 0

/-- The slot belongs to a connection of the client at `addr` that is not closed. -/
structure Serves (s : Server) (addr : SockAddr) (i : Fin 10) : Prop where
  inUse : s.InUse i
  owner : (s.slot i).srcAddr = addr
  notClosed : (s.slot i).isFin ≠ 1

instance (s : Server) : DecidablePred s.InUse := fun i =>
  inferInstanceAs (Decidable ((s.slot i).packHeader.id ≠ 0))

instance (s : Server) (addr : SockAddr) : DecidablePred (s.Serves addr) := fun i =>
  decidable_of_iff (s.InUse i ∧ (s.slot i).srcAddr = addr ∧ (s.slot i).isFin ≠ 1)
    ⟨fun h => ⟨h.1, h.2.1, h.2.2⟩, fun h => ⟨h.inUse, h.owner, h.notClosed⟩⟩

/-! ## Slots -/

@[simp] theorem slot_start (i : Fin 10) : start.slot i = Connection.unused := by
  simp only [slot, start, List.get_eq_getElem, List.getElem_replicate]

theorem slot_setSlot (s : Server) (i j : Fin 10) (c : Connection) :
    (s.setSlot i c).slot j = if j = i then c else s.slot j := by
  simp only [slot, setSlot, List.get_eq_getElem, List.getElem_set]
  by_cases hij : j = i
  · rw [if_pos hij, if_pos (congrArg Fin.val hij.symm)]
  · rw [if_neg hij, if_neg fun h => hij (Fin.ext h.symm)]

@[simp] theorem slot_setSlot_self (s : Server) (i : Fin 10) (c : Connection) :
    (s.setSlot i c).slot i = c := by
  rw [slot_setSlot, if_pos rfl]

theorem slot_setSlot_of_ne (s : Server) {i j : Fin 10} (h : j ≠ i) (c : Connection) :
    (s.setSlot i c).slot j = s.slot j := by
  rw [slot_setSlot, if_neg h]

theorem getElem?_slot (s : Server) (i : Fin 10) : s.allConnection[i.val]? = some (s.slot i) := by
  rw [List.getElem?_eq_getElem (by rw [s.size_eq]; exact i.isLt)]
  rfl

end Server

/-! ## The datagrams of a client

What `client.cpp` sends in a transfer of one segment. -/

def synOf (sender : Nat) : Arrival :=
  ⟨sender, datagram ⟨12345, 0, 0, synFlag⟩ (List.replicate dataSize 0)⟩

def firstDataOf (sender : Nat) (id : UInt16) (payload : Buffer) : Arrival :=
  ⟨sender, datagram ⟨12346, 4322, id, ackFlag⟩ payload⟩

def finOf (sender : Nat) (id : UInt16) (seq : UInt32) : Arrival :=
  ⟨sender, datagram ⟨seq, 0, id, finFlag⟩ (List.replicate dataSize 0)⟩

def lastAckOf (sender : Nat) (id : UInt16) (seq : UInt32) : Arrival :=
  ⟨sender, datagram ⟨seq, 4323, id, ackFlag⟩ (List.replicate dataSize 0)⟩

def transferOf (sender : Nat) (id : UInt16) : List Arrival :=
  [synOf sender, firstDataOf sender id [7], finOf sender id 12347, lastAckOf sender id 12347]

end Cs118.Confundo
