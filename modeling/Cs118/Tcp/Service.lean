import Mathlib.Logic.Function.Basic
import Cs118.Tcp.Transfer
/-!
# The server program

The accept loop of `main` in `server.cpp`, the threads it starts, and any number of clients.
`connection_num` and the loop's `clientSockfd`, which has the same place on the stack in
every iteration, are shared with each `connection_handler`, which reads both when its
thread gets to run.  A step ends where the program next touches what is shared.  A socket
is known by its connection, counted from 1 in the order of the `accept`s; a connection
takes data before it is accepted.
-/

namespace Cs118.Tcp

open Cs118.Lib.Bytes

/-- Where a thread stands.  `number` is what it has read of `connection_num`, `socket` what it
has read through its parameter, and `flushed` how much of what it has written to `fp` has
left the stream's buffer. -/
inductive Thread
  | created
  | named (number : Nat)
  | connected (number socket : Nat)
  | serving (number socket flushed : Nat) (handler : Handler)
deriving DecidableEq, Repr

/-- A client, the bytes its socket has taken, how many of them the server has received, and
whether the server's socket is open. -/
structure Peer where
  client : Client
  stream : Buffer
  taken : Nat
  isOpen : Bool
deriving DecidableEq, Repr

def Peer.transfer (p : Peer) (h : Handler) : Transfer := ⟨p.client, p.stream, p.taken, h⟩

/-- `accepted` is set between `accept` and `pthread_create`, and `files n` is `n.file` in
`target_dir`, once the program has opened it. -/
structure Service where
  connectionNum : Nat
  clientSockfd : Nat
  accepted : Bool
  threads : List Thread
  peers : Nat → Peer
  files : Nat → Option Buffer
  exited : Bool

def Service.start (source : Nat → Buffer) (timeout : Nat → Nat) : Service :=
  { connectionNum := 0
    clientSockfd := 0
    accepted := false
    threads := []
    peers := fun k => ⟨Client.start (source k) (timeout k), [], 0, true⟩
    files := fun _ => none
    exited := false }

/-- `send` is an iteration of a client; `accept`, `spawn` and `fail` are the accept loop's.
The others name a thread: `sprintf` reads `connection_num`, the dereferenced parameter is `clientSockfd`, `fopen`
truncates, `iterate` is an iteration of the loop, and `flush` empties a part of the stream's
buffer. -/
inductive ServiceAction
  | send (connection : Nat) (wait : Wait) (sent : Option Nat)
  | accept
  | spawn
  | fail
  | sprintf (i : Nat)
  | readParam (i : Nat)
  | fopen (i : Nat)
  | iterate (i : Nat) (wait : Wait) (count : Option Nat)
  | flush (i : Nat) (count : Nat)
deriving DecidableEq, Repr

/-- `data` written at `pos`; a gap before it is filled with zeros. -/
def writeAt (content : Buffer) (pos : Nat) (data : Buffer) : Buffer :=
  if data = [] then content
  else (content ++ List.replicate (pos - content.length) 0).take pos ++ data ++
    content.drop (pos + data.length)

namespace Service

def setThread (s : Service) (i : Nat) (thread : Thread) : Service :=
  { s with threads := s.threads.set i thread }

def setTaken (s : Service) (socket taken : Nat) : Service :=
  { s with peers := Function.update s.peers socket { s.peers socket with taken := taken } }

def write (s : Service) (number pos : Nat) (data : Buffer) : Service :=
  { s with
    files := Function.update s.files number
      ((s.files number).map fun content => writeAt content pos data) }

def settle (s : Service) (i number socket flushed : Nat) (h : Handler) : Service :=
  match h.status with
  | .receiving => s.setThread i (.serving number socket flushed h)
  -- `fclose(fp)`; the socket is left open
  | .finished =>
    (s.setThread i (.serving number socket h.file.length h)).write number flushed
      (h.file.drop flushed)
  -- `close(clientsockfd)`, and the file is opened anew, written and closed
  | .timedOut =>
    { s.setThread i (.serving number socket h.file.length h) with
      peers := Function.update s.peers socket { s.peers socket with isOpen := false }
      files := Function.update s.files number (some h.file) }
  -- `exit(EXIT_FAILURE)` ends all threads
  | .failed _ => { s.setThread i (.serving number socket flushed h) with exited := true }

/-- What `exit` leaves possible: clients are other programs, and streams are flushed. -/
def afterExit : ServiceAction → Bool
  | .send _ _ _ | .flush _ _ => true
  | _ => false

/-- `none` where the thread is elsewhere, and for results that the operating system does not
give. -/
def perform (s : Service) : ServiceAction → Option Service
  | .send k wait sent =>
    (((s.peers k).transfer Handler.start).step (.send wait sent)).map fun t =>
      { s with
        peers := Function.update s.peers k
          { s.peers k with client := t.client, stream := t.stream } }
  | .accept =>
    if s.accepted then none
    else some { s with clientSockfd := s.threads.length + 1, accepted := true }
  -- `connection_num++` and `pthread_create`
  | .spawn =>
    if s.accepted then
      some
        { s with
          connectionNum := s.connectionNum + 1
          accepted := false
          threads := s.threads ++ [.created] }
    else none
  -- `accept`, `pthread_create`, `fcntl` or `fopen` has failed
  | .fail => some { s with exited := true }
  | .sprintf i =>
    match s.threads[i]? with
    | some .created => some (s.setThread i (.named s.connectionNum))
    | _ => none
  | .readParam i =>
    match s.threads[i]? with
    | some (.named number) => some (s.setThread i (.connected number s.clientSockfd))
    | _ => none
  | .fopen i =>
    match s.threads[i]? with
    | some (.connected number socket) =>
      some
        { s.setThread i (.serving number socket 0 Handler.start) with
          files := Function.update s.files number (some []) }
    | _ => none
  | .iterate i wait count =>
    match s.threads[i]? with
    | some (.serving number socket flushed h) =>
      -- `select` fails on a descriptor that has been closed
      if (s.peers socket).isOpen = true ∨ wait = .error then
        (((s.peers socket).transfer h).step (.recv wait count)).map fun t =>
          (s.setTaken socket t.taken).settle i number socket flushed t.server
      else none
    | _ => none
  | .flush i count =>
    match s.threads[i]? with
    | some (.serving number socket flushed h) =>
      if 0 < count ∧ flushed + count ≤ h.file.length then
        some ((s.setThread i (.serving number socket (flushed + count) h)).write number flushed
          ((h.file.drop flushed).take count))
      else none
    | _ => none

def step (s : Service) (action : ServiceAction) : Option Service :=
  if s.exited = true ∧ afterExit action = false then none else s.perform action

end Service

end Cs118.Tcp
