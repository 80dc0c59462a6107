import Cs118.Lib.Bytes
/-!
# The two ends of the TCP transfer

The loop of `main` in `client.cpp` from the first `fread` on, and `connection_handler` of
`server.cpp`.  The operating system decides how long each `select` waits and what `send`
and `recv` return.  Files are read and written without error.
-/

namespace Cs118.Tcp

open Cs118.Lib.Bytes

/-- Time is in microseconds, as in a `timeval`. -/
def seconds (n : Nat) : Nat := n * 1000000

def initialTimeout : Nat := seconds 10

def bufSize : Nat := 1024

/-! ## `select` -/

/-- What a `select` meets: an error, or a socket that becomes ready after `time`. -/
inductive Wait
  | error
  | ready (time : Nat)
deriving DecidableEq, Repr

inductive Selected
  | failed
  | expired
  | ready (left : Nat)
deriving DecidableEq, Repr

/-- `select` on one socket.  Linux stores the time that is left into `timeout`. -/
def select (timeout : Nat) : Wait → Selected
  | .error => .failed
  | .ready time => if time ≤ timeout then .ready (timeout - time) else .expired

/-! ## The client -/

inductive ClientStatus
  | sending
  | succeeded
  | failed (message : String)
deriving DecidableEq, Repr

/-- `rest` is what `fread` has not read of the file. -/
structure Client where
  rest : Buffer
  timeout : Nat
  status : ClientStatus
deriving DecidableEq, Repr

/-- The client once it is connected, with what `connect` has left of the timeout. -/
def Client.start (file : Buffer) (timeout : Nat) : Client := ⟨file, timeout, .sending⟩

/-- One iteration, and what the socket takes of `buf`.  `sent` is the result of `send`,
`none` for an error.  A count less than `read_byte` is not looked at. -/
def Client.step (c : Client) (wait : Wait) (sent : Option Nat) : Client × Buffer :=
  match select c.timeout wait with
  | .failed => ({ c with status := .failed "ERROR: Select failed\n" }, [])
  | .expired => ({ c with status := .failed "ERROR: Connection timeout\n" }, [])
  | .ready left =>
    let c := { c with timeout := left }
    let buf := c.rest.take bufSize
    if buf = [] then ({ c with status := .succeeded }, [])
    else
      match sent with
      | none => ({ c with status := .failed "ERROR: Error on sending files\n" }, [])
      | some count => ({ c with rest := c.rest.drop bufSize }, buf.take count)

/-! ## The server -/

inductive HandlerStatus
  | receiving
  | finished
  | timedOut
  | failed (message : String)
deriving DecidableEq, Repr

/-- `file` is what has been written to `fp`. -/
structure Handler where
  timeout : Nat
  file : Buffer
  status : HandlerStatus
deriving DecidableEq, Repr

def Handler.start : Handler := ⟨initialTimeout, [], .receiving⟩

def errorMark : Buffer := [0x45, 0x52, 0x52, 0x4f, 0x52, 0x00]

/-- One iteration.  `received` is what `recv` returns: `none` for an error and no bytes
for a connection that the client has closed. -/
def Handler.step (h : Handler) (wait : Wait) (received : Option Buffer) : Handler :=
  match select h.timeout wait with
  | .failed => { h with status := .failed "ERROR: Select failed\n" }
  -- the file is opened anew
  | .expired => ⟨0, errorMark, .timedOut⟩
  | .ready left =>
    let h := { h with timeout := left }
    match received with
    | none => { h with status := .failed "ERROR: Receive data failed\n" }
    | some [] => { h with status := .finished }
    | some bytes => { h with file := h.file ++ bytes }

def connectionHandler : Handler → List (Wait × Option Buffer) → Handler
  | h, [] => h
  | h, (wait, received) :: rest =>
    match h.status with
    | .receiving => connectionHandler (h.step wait received) rest
    | _ => h

end Cs118.Tcp
