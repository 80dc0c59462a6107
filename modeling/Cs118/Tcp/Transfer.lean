import Cs118.Lib.Run
import Cs118.Tcp.Endpoints
/-!
# One client, the server, and the byte stream between them

`stream` is all that the client's socket has taken, and `taken` how much of it the server
has received.  The stream is reliable: `recv` finds its bytes in order, any number of them
at a time, and its end once the client has closed the socket.
-/

namespace Cs118.Tcp

open Cs118.Lib.Bytes
open Cs118.Lib.Run

structure Transfer where
  client : Client
  stream : Buffer
  taken : Nat
  server : Handler
deriving DecidableEq, Repr

def Transfer.start (file : Buffer) (timeout : Nat) : Transfer :=
  ⟨Client.start file timeout, [], 0, Handler.start⟩

def Transfer.inFlight (s : Transfer) : Buffer := s.stream.drop s.taken

/-- `sent` and `count` are the results of `send` and `recv`, `none` for an error. -/
inductive Action
  | send (wait : Wait) (sent : Option Nat)
  | recv (wait : Wait) (count : Option Nat)
deriving DecidableEq, Repr

/-- `send` takes at least one of the bytes it is offered, and no more than these. -/
def SendResult (offered : Nat) (count : Nat) : Prop := 1 ≤ count ∧ count ≤ offered

/-- `recv` gives bytes that are in flight, and none only at the end of the stream. -/
def RecvResult (s : Transfer) (count : Nat) : Prop :=
  count ≤ bufSize ∧ count ≤ s.inFlight.length ∧
    (count = 0 → s.inFlight = [] ∧ s.client.status ≠ .sending)

instance (offered count : Nat) : Decidable (SendResult offered count) :=
  inferInstanceAs (Decidable (_ ∧ _))

instance (s : Transfer) (count : Nat) : Decidable (RecvResult s count) :=
  inferInstanceAs (Decidable (_ ∧ _))

/-- `none` for results that the operating system does not give. -/
def Transfer.step (s : Transfer) : Action → Option Transfer
  | .send wait sent =>
    if s.client.status = .sending ∧
        (s.client.rest ≠ [] → ∀ count ∈ sent, SendResult (s.client.rest.take bufSize).length count)
    then
      let next := s.client.step wait sent
      some { s with client := next.1, stream := s.stream ++ next.2 }
    else none
  | .recv wait count =>
    if s.server.status = .receiving ∧ ∀ n ∈ count, RecvResult s n then
      match select s.server.timeout wait with
      | .ready _ =>
        some
          { s with
            taken := s.taken + count.getD 0
            server := s.server.step wait (count.map s.inFlight.take) }
      | _ => some { s with server := s.server.step wait none }
    else none

end Cs118.Tcp
