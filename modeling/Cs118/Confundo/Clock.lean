import Cs118.Confundo.Session
/-!
# The Confundo client and its clock (`client.cpp`)

The client once more, with the readings of `std::chrono::steady_clock` it takes and
the times it keeps.  Which of its timers has run out is no longer left to the
environment: it follows from the readings.  A reading that the code takes on some
paths only is part of the event on all of them.
-/

namespace Cs118.Confundo

open Cs118.Lib.Bytes
open Cs118.Lib.Run

/-- Nanoseconds.  The clock never goes back, so the differences are natural numbers. -/
abbrev TimePoint := Nat

def milliseconds (d : Nat) : Nat := d / 1000000

def seconds (d : Nat) : Nat := d / 1000000000

structure TimedClient where
  client : Client
  /-- The field `send_time` of the entries of `CWND_logs`. -/
  sendTimes : List TimePoint
  stamped : sendTimes.length = client.cwndLogs.length
  -- locals of `slidingWindow_data_trans`; `timer_flag` in its use there
  timerFlag : Bool
  timeoutCheck : TimePoint
  -- the first reading of `timer`
  timeOut : TimePoint
  -- locals of `handshake`, then of `ending`
  startTime : TimePoint
  sendTime : TimePoint
  /-- The latest reading. -/
  clock : TimePoint
deriving DecidableEq, Repr

/-- One pass through a loop of the program, with the readings in the order in which
they are taken and, as in `ClientEvent`, the bytes in `recv_packet`. -/
inductive TimedEvent
  | greet (now timer : TimePoint)
  | reply (bytes : Buffer) (now : TimePoint)
  | fire (now : TimePoint)
  | iterate (now sent : TimePoint)
  | receive (bytes : Buffer) (now start send : TimePoint)
  | nothing (now start send : TimePoint)
  | poll (now check sent : TimePoint) (answer : Option (Buffer × TimePoint × TimePoint))
  | wait (now : TimePoint) (answer : Option Buffer)
deriving DecidableEq, Repr

namespace TimedEvent

def readings : TimedEvent → List TimePoint
  | greet now timer => [now, timer]
  | reply _ now => [now]
  | fire now => [now]
  | iterate now sent => [now, sent]
  | receive _ now start send => [now, start, send]
  | nothing now start send => [now, start, send]
  | poll now check sent none => [now, check, sent]
  | poll now check sent (some (_, received, replied)) => [now, check, sent, received, replied]
  | wait now _ => [now]

def received : TimedEvent → Option Buffer
  | reply bytes _ => some bytes
  | receive bytes _ _ _ => some bytes
  | poll _ _ _ answer => answer.map (·.1)
  | wait _ answer => answer
  | greet _ _ | fire _ | iterate _ _ | nothing _ _ _ => none

end TimedEvent

namespace TimedClient

def start (now : TimePoint) : TimedClient :=
  ⟨Client.start, [], rfl, false, 0, 0, now, 0, now⟩

def setPhase (t : TimedClient) (phase : Phase) : TimedClient :=
  { t with client := { t.client with phase := phase }, stamped := t.stamped }

/-! ## `handshake` -/

theorem cwndLogs_onSynReply (file : Buffer) (c : Client) (h : Header) :
    (onSynReply file c h).cwndLogs = c.cwndLogs := by
  unfold onSynReply enterTransfer
  split_ifs <;> rfl

/-- `recv_pack` returns a datagram. -/
def isExpected (h : Header) : Bool := h.ack = 12346 ∨ h.flags = finFlag

def onSynReply (file : Buffer) (t : TimedClient) (h : Header) (now : TimePoint) : TimedClient :=
  if isExpected h then
    { t with
      client := Confundo.onSynReply file t.client h
      stamped := t.stamped.trans (congrArg List.length (cwndLogs_onSynReply file t.client h).symm)
      timerFlag := false
      startTime := now }
  else t

/-! ## `slidingWindow_data_trans` -/

def timedOut (t : TimedClient) (now : TimePoint) : Bool :=
  match t.sendTimes with
  | [] => false
  | front :: _ => 500 < milliseconds (now - front)

theorem length_rewind (c : Client) : (Confundo.rewind c).cwndLogs.length = c.cwndLogs.length - 1 := by
  unfold Confundo.rewind
  cases hlogs : c.cwndLogs <;> simp [hlogs]

def rewind (t : TimedClient) : TimedClient :=
  { t with
    client := Confundo.rewind t.client
    sendTimes := t.sendTimes.tail
    stamped := by rw [List.length_tail, t.stamped, length_rewind] }

theorem length_sendNext (file : Buffer) {c : Client}
    (h : 0 < c.cwndSpace ∧ c.myfile.eof = false) :
    (Confundo.sendNext file c).1.cwndLogs.length = c.cwndLogs.length + 1 := by
  unfold Confundo.sendNext
  rw [if_pos h]
  simp

def sendNext (file : Buffer) (t : TimedClient) (sent : TimePoint) : TimedClient × List Buffer :=
  if h : 0 < t.client.cwndSpace ∧ t.client.myfile.eof = false then
    ({ t with
        client := (Confundo.sendNext file t.client).1
        sendTimes := t.sendTimes ++ [sent]
        stamped := by rw [length_sendNext file h, List.length_append, t.stamped]; rfl
        timeoutCheck := if t.timerFlag then t.timeoutCheck else sent
        timerFlag := true }, (Confundo.sendNext file t.client).2)
  else (t, [])

theorem length_eraseThrough {ack : UInt32} {logs rest : List Logger}
    (h : eraseThrough ack logs = some rest) : rest.length ≤ logs.length := by
  induction logs with
  | nil => simp [eraseThrough] at h
  | cons log logs ih =>
      unfold eraseThrough at h
      split_ifs at h
      · obtain rfl := Option.some.inj h
        simp
      · exact (ih h).trans (by simp)

theorem cwndLogs_growWindow (c : Client) : (growWindow c).cwndLogs = c.cwndLogs := by
  unfold growWindow
  dsimp only
  split_ifs <;> rfl

theorem length_onAck (c : Client) (ack : UInt32) :
    (Confundo.onAck c ack).cwndLogs.length ≤ c.cwndLogs.length := by
  unfold Confundo.onAck
  cases hlogs : eraseThrough ack c.cwndLogs with
  | none => exact le_rfl
  | some rest =>
      dsimp only
      rw [cwndLogs_growWindow]
      exact length_eraseThrough hlogs

def onAck (t : TimedClient) (ack : UInt32) (now : TimePoint) : TimedClient :=
  { t with
    client := Confundo.onAck t.client ack
    sendTimes := t.sendTimes.drop
      (t.client.cwndLogs.length - (Confundo.onAck t.client ack).cwndLogs.length)
    stamped := by
      rw [List.length_drop, t.stamped]
      exact Nat.sub_sub_self (length_onAck t.client ack)
    timeoutCheck := now }

theorem cwndLogs_endIteration (c : Client) : (Confundo.endIteration c).1.cwndLogs = c.cwndLogs := by
  unfold Confundo.endIteration
  split_ifs <;> rfl

def endIteration (t : TimedClient) (start send : TimePoint) : TimedClient × List Buffer :=
  let next := Confundo.endIteration t.client
  ({ t with
      client := next.1
      stamped := t.stamped.trans (congrArg List.length (cwndLogs_endIteration t.client).symm)
      startTime := if next.1.phase = .finWait then start else t.startTime
      sendTime := if next.1.phase = .finWait then send else t.sendTime }, next.2)

/-! ## `ending` -/

theorem cwndLogs_onFinReply (c : Client) (h : Header) :
    (Confundo.onFinReply c h).1.cwndLogs = c.cwndLogs := by
  unfold Confundo.onFinReply
  split_ifs <;> rfl

theorem cwndLogs_onTimeWait (c : Client) (h : Header) :
    (Confundo.onTimeWait c h).1.cwndLogs = c.cwndLogs := by
  unfold Confundo.onTimeWait
  split_ifs <;> rfl

/-- `FIN` goes out again after the send time-out.  The count of whole seconds is
compared with 0.5. -/
def resendFin (t : TimedClient) (check sent : TimePoint) : TimedClient × List Buffer :=
  if 1 ≤ 2 * seconds (check - t.sendTime) then ({ t with sendTime := sent }, [finPacket t.client])
  else (t, [])

def onFinReply (t : TimedClient) (h : Header) (received replied : TimePoint) :
    TimedClient × List Buffer :=
  let next := Confundo.onFinReply t.client h
  ({ t with
      client := next.1
      stamped := t.stamped.trans (congrArg List.length (cwndLogs_onFinReply t.client h).symm)
      startTime := if next.1.phase = .timeWait then replied else received }, next.2)

def onTimeWait (t : TimedClient) (h : Header) : TimedClient × List Buffer :=
  let next := Confundo.onTimeWait t.client h
  ({ t with
      client := next.1
      stamped := t.stamped.trans
        (congrArg List.length (cwndLogs_onTimeWait t.client h).symm) }, next.2)

/-! ## The state machine -/

/-- One event whose readings are not before the latest one. -/
def react (file : Buffer) (t : TimedClient) (event : TimedEvent) :
    Option (TimedClient × List Buffer) :=
  match t.client.phase, event with
  | .synSend, .greet now timer =>
    if 10 ≤ seconds (now - t.startTime) then some (t.setPhase .failed, [])
    else some ({ t.setPhase .synWait with timeOut := timer }, [synPacket t.client])
  | .synWait, .reply bytes now => some (t.onSynReply file (readHeader bytes) now, [])
  | .synWait, .fire now =>
    if 500 ≤ milliseconds (now - t.timeOut) then some (t.setPhase .synSend, []) else some (t, [])
  | .loopTop, .iterate now sent =>
    let next := sendNext file (if t.timedOut now then t.rewind else t) sent
    some (next.1.setPhase .loopRecv, next.2)
  | .loopRecv, .receive bytes now start send =>
    if bytes = [] then none
    else some ((t.onAck (readHeader bytes).ack now).endIteration start send)
  | .loopRecv, .nothing now start send =>
    if 10 ≤ seconds (now - t.timeoutCheck) then some (t.setPhase .failed, [])
    else some (t.endIteration start send)
  | .finWait, .poll now check sent answer =>
    -- out of the program before its `recvfrom`
    if 10 ≤ seconds (now - t.startTime) then
      if answer = none then some (t.setPhase .failed, []) else none
    else
      let resent := t.resendFin check sent
      match answer with
      | none => some resent
      | some (bytes, received, replied) =>
        if bytes = [] then none
        else
          let next := resent.1.onFinReply (readHeader bytes) received replied
          some (next.1, resent.2 ++ next.2)
  | .timeWait, .wait now answer =>
    if 2 ≤ seconds (now - t.startTime) then
      if answer = none then some (t.setPhase .closed, []) else none
    else
      match answer with
      | none => some (t, [])
      | some bytes => if bytes = [] then none else some (t.onTimeWait (readHeader bytes))
  | _, _ => none

def step (file : Buffer) (t : TimedClient) (event : TimedEvent) :
    Option (TimedClient × List Buffer) :=
  if (t.clock :: event.readings).IsChain (· ≤ ·) then
    (t.react file event).map fun next =>
      ({ next.1 with clock := event.readings.getLastD t.clock }, next.2)
  else none

end TimedClient

/-! ## The session of such a client -/

structure TimedSession where
  client : TimedClient
  server : Server
  toServer : List Buffer
  toClient : List Buffer
deriving DecidableEq, Repr

/-- The event of the client receives the datagram at position `i`, if it receives one.
The others are the actions of the server and of the network. -/
inductive TimedAction
  | client (event : TimedEvent) (i : Nat)
  | environment (action : Action)
deriving DecidableEq, Repr

def Action.isClient : Action → Bool
  | .client _ => true
  | .clientReceive _ => true
  | _ => false

namespace TimedSession

def start (now : TimePoint) : TimedSession := ⟨TimedClient.start now, Server.start, [], []⟩

def untimed (s : TimedSession) : Session :=
  ⟨s.client.client, s.server, s.toServer, s.toClient⟩

def step (file : Buffer) (addr : SockAddr) (s : TimedSession) :
    TimedAction → Option TimedSession
  | .client event i =>
    match event.received with
    | none =>
      (s.client.step file event).map fun next =>
        { s with client := next.1, toServer := s.toServer ++ next.2 }
    | some bytes =>
      if s.toClient[i]? = some bytes then
        (s.client.step file event).map fun next =>
          { s with
            client := next.1
            toServer := s.toServer ++ next.2
            toClient := s.toClient.eraseIdx i }
      else none
  | .environment action =>
    if action.isClient then none
    else (Session.step file addr s.untimed action).map fun next =>
      { s with server := next.server, toServer := next.toServer, toClient := next.toClient }

def Reachable (file : Buffer) (addr : SockAddr) (now : TimePoint) (s : TimedSession) : Prop :=
  Reach (step file addr) (fun _ => True) (start now) s

end TimedSession

end Cs118.Confundo
