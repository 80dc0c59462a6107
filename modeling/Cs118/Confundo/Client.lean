import Cs118.Confundo.Wire
/-!
# The Confundo client (`client.cpp`)

`handshake`, `slidingWindow_data_trans` and `ending` as one state machine over
the file's globals.  Clock readings are left to the environment: whether 0.5,
2 or 10 seconds have passed is part of the event.  The file is a parameter; it
opens and reads without errors.  `standard_output` and the variables only it
reads (`last_seq`) are left out.
-/

namespace Cs118.Confundo

open Cs118.Lib.Bytes

/-- `struct logger`, without the time stamp. -/
structure Logger where
  eAck : UInt32
  seq : UInt32
  filePos : Nat
deriving DecidableEq, Repr

/-! ## The input file stream -/

/-- Position and state bits of `std::ifstream myfile`. -/
structure InFile where
  pos : Nat
  eof : Bool
  fail : Bool
deriving DecidableEq, Repr

namespace InFile

def start : InFile := ⟨0, false, false⟩

def tellg (f : InFile) : Option Nat := if f.fail then none else some f.pos

def clearSeekg (_ : InFile) (pos : Nat) : InFile := ⟨pos, false, false⟩

/-- `read(data, count)` of a good stream: the bytes, whose number is `gcount()`,
and the stream.  A short read sets `eofbit` and `failbit`. -/
def read (f : InFile) (file : Buffer) (count : Nat) : Buffer × InFile :=
  let chunk := getBytes file f.pos count
  if chunk.length < count then (chunk, ⟨f.pos + chunk.length, true, true⟩)
  else (chunk, ⟨f.pos + chunk.length, f.eof, f.fail⟩)

end InFile

/-! ## State -/

/-- Where the program stands between two system calls it can wait in. -/
inductive Phase
  | synSend    -- `handshake`: top of the loop
  | synWait    -- `recv_pack`
  | loopTop    -- `slidingWindow_data_trans`: top of the loop
  | loopRecv   -- before its `recvfrom`
  | finWait    -- `ending`: the loop before the server's `FIN`
  | timeWait   -- `while(client_fin)`
  | closed     -- `ending` has returned
  | failed     -- `exit(EXIT_FAILURE)`
deriving DecidableEq, Repr

structure Client where
  phase : Phase
  ssThresh : UInt32
  cwnd : UInt32
  seqNum : UInt32
  ackNum : UInt32
  idNum : UInt32
  cwndLogs : List Logger
  -- locals of `slidingWindow_data_trans`
  cwndSpace : UInt32
  flags : UInt16
  myfile : InFile
deriving DecidableEq, Repr

def Client.start : Client :=
  ⟨.synSend, 10000, 512, 12345, 0, 0, [], 0, 0, InFile.start⟩

def Client.inTransfer (c : Client) : Prop := c.phase = .loopTop ∨ c.phase = .loopRecv

instance (c : Client) : Decidable c.inTransfer := inferInstanceAs (Decidable (_ ∨ _))

/-- What may happen to the client.  The bytes of `receive` are those in `recv_packet` when
`recvfrom` has returned; none are there when nothing was received. -/
inductive ClientEvent
  | sendSyn
  | synTimeout
  | giveUp
  | iterate (timeout : Bool)
  | receive (bytes : Buffer)
  | nothing
  | resendFin
  | timeUp
deriving DecidableEq, Repr

def maxFileSize : Int := 100 * 1024 * 1024

/-- `int file_length = myfile.tellg()` against `max_file_size`. -/
def fileTooLarge (file : Buffer) : Bool :=
  maxFileSize < (Int32.ofNat file.length).toInt

/-! ## `handshake` -/

def synPacket (c : Client) : Buffer :=
  datagram ⟨c.seqNum, c.ackNum, c.idNum.toUInt16, synFlag⟩ (List.replicate dataSize 0)

/-- From the end of `handshake` into the loop of `slidingWindow_data_trans`. -/
def enterTransfer (file : Buffer) (c : Client) : Client :=
  if fileTooLarge file then { c with phase := .failed }
  else
    { c with
      phase := .loopTop
      cwndSpace := c.cwnd / 512
      flags := ackFlag
      myfile := InFile.start }

/-- `recv_pack` in `handshake`: it returns on the expected acknowledgement or on
a `FIN`, and `handshake` then checks flags and sequence number. -/
def onSynReply (file : Buffer) (c : Client) (h : Header) : Client :=
  if h.ack = 12346 ∨ h.flags = finFlag then
    let c' := if c.cwnd < c.ssThresh then { c with cwnd := c.cwnd + 512 } else c
    if h.flags = synAckFlag ∧ h.seq = 4321 then
      enterTransfer file
        { c' with seqNum := h.ack, ackNum := h.seq + 1, idNum := h.id.toUInt32 }
    else { c' with phase := .synSend }
  else c

/-! ## `slidingWindow_data_trans` -/

/-- The time-out part: back to the position and number of the oldest packet. -/
def rewind (c : Client) : Client :=
  match c.cwndLogs with
  | [] => c
  | front :: rest =>
    { c with
      myfile := c.myfile.clearSeekg front.filePos
      seqNum := front.seq
      cwndLogs := rest
      ssThresh := c.cwnd / 2
      cwnd := 512
      cwndSpace := 512 / 512 }

/-- The sending part: the next 512 bytes, if there is credit and no end of file. -/
def sendNext (file : Buffer) (c : Client) : Client × List Buffer :=
  if 0 < c.cwndSpace ∧ c.myfile.eof = false then
    let filePos := c.myfile.pos
    let next := c.myfile.read file dataSize
    let packet := datagram ⟨c.seqNum, c.ackNum, c.idNum.toUInt16, c.flags⟩ next.1
    let seqNum := (c.seqNum + UInt32.ofNat next.1.length) % UInt32.ofNat seqModulus
    ({ c with
        ackNum := 0
        flags := 0
        seqNum := seqNum
        cwndLogs := c.cwndLogs ++ [⟨seqNum, c.seqNum, filePos⟩]
        cwndSpace := c.cwndSpace - 1
        myfile := next.2 }, [packet])
  else (c, [])

/-- `CWND_logs` without the first entry that expects `ack` and all before it. -/
def eraseThrough (ack : UInt32) : List Logger → Option (List Logger)
  | [] => none
  | log :: rest => if log.eAck = ack then some rest else eraseThrough ack rest

def growWindow (c : Client) : Client :=
  if c.cwnd < c.ssThresh then
    { c with cwnd := c.cwnd + 512, cwndSpace := c.cwndSpace + 2 }
  else
    let cwnd := c.cwnd + 512 * 512 / c.cwnd
    if 1 ≤ cwnd / 512 - c.cwnd / 512 then
      { c with cwnd := cwnd, cwndSpace := c.cwndSpace + 2 }
    else { c with cwnd := cwnd, cwndSpace := c.cwndSpace + 1 }

def onAck (c : Client) (ack : UInt32) : Client :=
  match eraseThrough ack c.cwndLogs with
  | none => c
  | some rest => growWindow { c with cwndLogs := rest }

/-! ## `ending` -/

def finPacket (c : Client) : Buffer :=
  datagram ⟨c.seqNum, 0, c.idNum.toUInt16, finFlag⟩ (List.replicate dataSize 0)

def lastAck (c : Client) (seq : UInt32) : Buffer :=
  datagram ⟨c.seqNum, seq + 1, c.idNum.toUInt16, ackFlag⟩ (List.replicate dataSize 0)

/-- The end of an iteration of the transfer loop: back to its top, or out of it
and to the first `FIN`. -/
def endIteration (c : Client) : Client × List Buffer :=
  if c.myfile.tellg = none ∧ c.cwndLogs = [] then
    let c' := { c with phase := .finWait, ackNum := 0 }
    (c', [finPacket c'])
  else ({ c with phase := .loopTop }, [])

def onFinReply (c : Client) (h : Header) : Client × List Buffer :=
  if (h.ack = c.seqNum + 1 ∨ h.flags = finFlag) ∧
      (h.flags = ackFinFlag ∨ h.flags = finFlag) then
    ({ c with phase := .timeWait, ackNum := h.seq + 1 }, [lastAck c h.seq])
  else (c, [])

def onTimeWait (c : Client) (h : Header) : Client × List Buffer :=
  if h.flags = finFlag then ({ c with ackNum := h.seq + 1 }, [lastAck c h.seq])
  else (c, [])

/-! ## The state machine -/

/-- One event; `none` where the client is not waiting for it. -/
def Client.step (file : Buffer) (c : Client) (event : ClientEvent) :
    Option (Client × List Buffer) :=
  match c.phase, event with
  | .synSend, .sendSyn => some ({ c with phase := .synWait }, [synPacket c])
  | .synSend, .giveUp => some ({ c with phase := .failed }, [])
  | .synWait, .synTimeout => some ({ c with phase := .synSend }, [])
  | .synWait, .receive bytes => some (onSynReply file c (readHeader bytes), [])
  | .loopTop, .iterate timeout =>
    if timeout ∧ c.cwndLogs = [] then none
    else
      let next := sendNext file (if timeout then rewind c else c)
      some ({ next.1 with phase := .loopRecv }, next.2)
  | .loopRecv, .receive bytes =>
    -- `byte_s > 0`
    if bytes = [] then none else some (endIteration (onAck c (readHeader bytes).ack))
  | .loopRecv, .nothing => some (endIteration c)
  | .loopRecv, .giveUp => some ({ c with phase := .failed }, [])
  | .finWait, .resendFin => some (c, [finPacket c])
  | .finWait, .giveUp => some ({ c with phase := .failed }, [])
  | .finWait, .receive bytes =>
    if bytes = [] then none else some (onFinReply c (readHeader bytes))
  | .timeWait, .receive bytes =>
    if bytes = [] then none else some (onTimeWait c (readHeader bytes))
  | .timeWait, .timeUp => some ({ c with phase := .closed }, [])
  | _, _ => none

end Cs118.Confundo
