import Cs118.Confundo.Wire
/-!
# The Confundo server (`server.cpp`)

One iteration of the receive loop: a datagram comes in, the table
`all_connection` is updated, files are appended to, and datagrams go out.
Header fields in the table are kept in host order.  A file that is opened opens
and the disk takes what is written; `print_packet` has no effect on this state.
-/

namespace Cs118.Confundo

open Cs118.Lib.Bytes

structure SockAddr where
  saFamily : UInt16
  saData : Nat
deriving DecidableEq, Repr

def afInet : UInt16 := 2

/-- `std::ofstream` and the contents of the file it was opened on; `fail` is
`failbit` or `badbit`. -/
structure OutFile where
  isOpen : Bool
  fail : Bool
  contents : Buffer
deriving DecidableEq, Repr

namespace OutFile

/-- `open` truncates and clears the state, but fails on a stream that is open. -/
def reopen (f : OutFile) : OutFile :=
  if f.isOpen then { f with fail := true } else ⟨true, false, []⟩

def close (f : OutFile) : OutFile :=
  if f.isOpen then { f with isOpen := false } else { f with fail := true }

/-- `write(data, count)`.  The buffer takes no character for a negative count or
without a file, and a number of characters other than `count` sets `badbit`.
After that nothing is written any more. -/
def write (f : OutFile) (data : Buffer) (count : Int) : OutFile :=
  if f.fail then f
  else
    let put := if f.isOpen then count.toNat else 0
    { f with contents := f.contents ++ data.take put, fail := (put : Int) ≠ count }

structure Ready (f : OutFile) : Prop where
  isOpen : f.isOpen = true
  good : f.fail = false

theorem isOpen_write (f : OutFile) (data : Buffer) (count : Int) :
    (f.write data count).isOpen = f.isOpen := by
  unfold write
  split_ifs <;> rfl

theorem write_of_fail {f : OutFile} (h : f.fail = true) (data : Buffer) (count : Int) :
    f.write data count = f := if_pos h

theorem contents_write_of_closed {f : OutFile} (h : f.isOpen = false) (data : Buffer)
    (count : Int) : (f.write data count).contents = f.contents := by
  cases hfail : f.fail <;> simp [write, h, hfail]

theorem contents_write {f : OutFile} (h : f.Ready) (data : Buffer) (count : Int) :
    (f.write data count).contents = f.contents ++ data.take count.toNat := by
  simp [write, h.isOpen, h.good]

/-- Only a negative count makes an open stream fail. -/
theorem fail_write {f : OutFile} (h : f.isOpen = true) (data : Buffer) (count : Int) :
    (f.write data count).fail = true ↔ f.fail = true ∨ count < 0 := by
  cases hfail : f.fail with
  | true => simp [write_of_fail hfail, hfail]
  | false =>
      simp [write, h, hfail]

theorem write_ofNat {f : OutFile} (h : f.Ready) (data : Buffer) (n : Nat) :
    f.write data n = { f with contents := f.contents ++ data.take n } := by
  simp [write, h.isOpen, h.good]

theorem contents_close (f : OutFile) : f.close.contents = f.contents := by
  unfold close
  split_ifs <;> rfl

theorem close_of_closed {f : OutFile} (h : f.isOpen = false) : f.close.isOpen = false := by
  simp [close, h]

theorem reopen_of_closed {f : OutFile} (h : f.isOpen = false) : f.reopen = ⟨true, false, []⟩ := by
  simp [reopen, h]

end OutFile

/-- `struct connection_info`. -/
structure Connection where
  packHeader : Header
  srcAddr : SockAddr
  myfile : OutFile
  isFin : Nat
deriving DecidableEq, Repr

def Connection.unused : Connection := ⟨⟨0, 0, 0, 0⟩, ⟨0, 0⟩, ⟨false, false, []⟩, 0⟩

abbrev Send := SockAddr × Buffer

/-- `all_connection[10]`. -/
structure Server where
  allConnection : List Connection
  size_eq : allConnection.length = 10
deriving DecidableEq, Repr

def Server.start : Server := ⟨List.replicate 10 Connection.unused, by simp⟩

/-- The reply in `buf`: the slot's header in network order over the data that
came in. -/
def reply (c : Connection) (buf : Packet) : Send :=
  (c.srcAddr, datagram c.packHeader buf.data)

/-! ## The `SYN` branch -/

def openConnection (clientAddr : SockAddr) (buf : Packet) (i : Nat) (c : Connection) :
    Connection :=
  { c with
    packHeader := ⟨4321, buf.packHeader.seq + 1, UInt16.ofNat (i + 1), synAckFlag⟩
    srcAddr := clientAddr
    myfile := c.myfile.reopen }

/-- The loop over the slots from index `i` on.  A slot whose address family is
the sender's is sent `buf` back, whose header is in host order here. -/
def synScan (clientAddr : SockAddr) (buf : Packet) :
    Nat → List Connection → List Connection × List Send
  | _, [] => ([], [])
  | i, c :: rest =>
    if c.srcAddr.saFamily ≠ clientAddr.saFamily then
      if c.packHeader.id = 0 then
        let c' := openConnection clientAddr buf i c
        (c' :: rest, [reply c' buf])
      else
        let next := synScan clientAddr buf (i + 1) rest
        (c :: next.1, next.2)
    else
      let next := synScan clientAddr buf (i + 1) rest
      (c :: next.1, (c.srcAddr, buf.packHeader.image ++ buf.data) :: next.2)

/-! ## The data and `FIN` branches -/

/-- The loop of both branches: the first slot with the datagram's id is
updated, and the loop is left. -/
def scanId (id : UInt16) (update : Connection → Connection × List Send) :
    List Connection → List Connection × List Send
  | [] => ([], [])
  | c :: rest =>
    if id = c.packHeader.id then
      let next := update c
      (next.1 :: rest, next.2)
    else
      let next := scanId id update rest
      (c :: next.1, next.2)

/-- `seq` moves on when the client acknowledges what was sent to it. -/
def noteAck (buf : Packet) (c : Connection) : Connection :=
  if buf.packHeader.ack = c.packHeader.seq then c
  else if buf.packHeader.ack = c.packHeader.seq + 1 then
    { c with packHeader := { c.packHeader with seq := c.packHeader.seq + 1 } }
  else c

/-- The body for a datagram with flags `ACK` or 0. -/
def dataBranch (buf : Packet) (recvByte : Nat) (c : Connection) : Connection × List Send :=
  if c.isFin = 1 then ({ c with myfile := c.myfile.close }, [])
  else
    let c₁ :=
      if buf.packHeader.seq = c.packHeader.ack then
        -- `ack += recv_byte-12` in `uint32_t`, then `%= 102401`
        let ack := (c.packHeader.ack + (UInt32.ofNat recvByte - 12)) % UInt32.ofNat seqModulus
        let c' := noteAck buf { c with packHeader := { c.packHeader with ack := ack } }
        { c' with myfile := c'.myfile.write buf.data ((recvByte : Int) - 12) }
      else noteAck buf c
    let c₂ := { c₁ with packHeader := { c₁.packHeader with flags := ackFlag } }
    (c₂, [reply c₂ buf])

/-- The body for a datagram with flags `FIN`: an `ACK`, and then a `FIN` of the
server's own. -/
def finBranch (buf : Packet) (c : Connection) : Connection × List Send :=
  let ack :=
    if buf.packHeader.seq = c.packHeader.ack then c.packHeader.ack + 1 else c.packHeader.ack
  let c₁ := { c with packHeader := { c.packHeader with ack := ack, flags := ackFlag } }
  let fin : Header := ⟨c₁.packHeader.seq, 0, c₁.packHeader.id, finFlag⟩
  ({ c₁ with isFin := 1 }, [reply c₁ buf, (c₁.srcAddr, datagram fin buf.data)])

/-! ## The receive loop -/

def dispatch (clientAddr : SockAddr) (buf : Packet) (recvByte : Nat)
    (table : List Connection) : List Connection × List Send :=
  if buf.packHeader.flags = synFlag then synScan clientAddr buf 0 table
  else if buf.packHeader.flags = ackFlag ∨ buf.packHeader.flags = 0 then
    scanId buf.packHeader.id (dataBranch buf recvByte) table
  else if buf.packHeader.flags = finFlag then
    scanId buf.packHeader.id (finBranch buf) table
  else (table, [])

theorem length_synScan (clientAddr : SockAddr) (buf : Packet) (i : Nat)
    (table : List Connection) :
    (synScan clientAddr buf i table).1.length = table.length := by
  induction table generalizing i with
  | nil => rfl
  | cons c rest ih =>
      unfold synScan
      split_ifs <;> simp [ih]

theorem length_scanId (id : UInt16) (update : Connection → Connection × List Send)
    (table : List Connection) : (scanId id update table).1.length = table.length := by
  induction table with
  | nil => rfl
  | cons c rest ih =>
      unfold scanId
      split_ifs <;> simp [ih]

theorem length_dispatch (clientAddr : SockAddr) (buf : Packet) (recvByte : Nat)
    (table : List Connection) :
    (dispatch clientAddr buf recvByte table).1.length = table.length := by
  unfold dispatch
  split_ifs <;> simp [length_synScan, length_scanId]

/-- One iteration of `while(1)` in `main`. -/
def Server.receive (s : Server) (clientAddr : SockAddr) (bytes : Buffer) :
    Server × List Send :=
  let next := dispatch clientAddr (receivePacket bytes) (receivedBytes bytes) s.allConnection
  (⟨next.1, (length_dispatch _ _ _ _).trans s.size_eq⟩, next.2)

end Cs118.Confundo
