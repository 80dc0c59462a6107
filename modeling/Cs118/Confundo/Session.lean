import Cs118.Lib.Run
import Cs118.Confundo.Client
import Cs118.Confundo.Server
/-!
# One client, the server, and the network between them

The datagrams in flight are two lists, one for each direction.  The network may
deliver any of them, drop any of them, and put a second copy of any of them in
flight; nothing else can happen to a datagram.
-/

namespace Cs118.Confundo

open Cs118.Lib.Bytes
open Cs118.Lib.Run

structure Session where
  client : Client
  server : Server
  toServer : List Buffer
  toClient : List Buffer
deriving DecidableEq, Repr

def Session.start : Session := ⟨Client.start, Server.start, [], []⟩

/-- `client` is an event other than the receipt of a datagram.  The network's
actions name a datagram by its position. -/
inductive Action
  | client (event : ClientEvent)
  | clientReceive (i : Nat)
  | serverReceive (i : Nat)
  | loseToServer (i : Nat)
  | loseToClient (i : Nat)
  | copyToServer (i : Nat)
  | copyToClient (i : Nat)
deriving DecidableEq, Repr

def Action.noCopy : Action → Prop
  | .copyToServer _ => False
  | .copyToClient _ => False
  | _ => True

instance : DecidablePred Action.noCopy
  | .copyToServer _ | .copyToClient _ => isFalse id
  | .client _ | .clientReceive _ | .serverReceive _ | .loseToServer _ | .loseToClient _ =>
    isTrue trivial

def Action.isLoss : Action → Prop
  | .loseToServer _ => True
  | .loseToClient _ => True
  | _ => False

def ClientEvent.isReceive : ClientEvent → Bool
  | .receive _ => true
  | _ => false

def sendsTo (addr : SockAddr) (sends : List Send) : List Buffer :=
  (sends.filter fun send => send.1 = addr).map (·.2)

def Session.step (file : Buffer) (addr : SockAddr) (s : Session) : Action → Option Session
  | .client event =>
    if event.isReceive then none
    else (s.client.step file event).map fun next =>
      { s with client := next.1, toServer := s.toServer ++ next.2 }
  | .clientReceive i =>
    s.toClient[i]?.bind fun bytes =>
      (s.client.step file (.receive bytes)).map fun next =>
        { s with
          client := next.1
          toServer := s.toServer ++ next.2
          toClient := s.toClient.eraseIdx i }
  | .serverReceive i =>
    s.toServer[i]?.map fun bytes =>
      let next := s.server.receive addr bytes
      { s with
        server := next.1
        toServer := s.toServer.eraseIdx i
        toClient := s.toClient ++ sendsTo addr next.2 }
  | .loseToServer i =>
    if i < s.toServer.length then some { s with toServer := s.toServer.eraseIdx i } else none
  | .loseToClient i =>
    if i < s.toClient.length then some { s with toClient := s.toClient.eraseIdx i } else none
  | .copyToServer i =>
    s.toServer[i]?.map fun bytes => { s with toServer := s.toServer ++ [bytes] }
  | .copyToClient i =>
    s.toClient[i]?.map fun bytes => { s with toClient := s.toClient ++ [bytes] }

def Session.Reachable (file : Buffer) (addr : SockAddr) (s : Session) : Prop :=
  Reach (Session.step file addr) (fun _ => True) Session.start s

/-- The states a session can be in when no datagram is delivered twice. -/
def Session.ReachableOnce (file : Buffer) (addr : SockAddr) (s : Session) : Prop :=
  Reach (Session.step file addr) Action.noCopy Session.start s

theorem Session.ReachableOnce.reachable {file : Buffer} {addr : SockAddr} {s : Session}
    (h : Session.ReachableOnce file addr s) : Session.Reachable file addr s :=
  Reach.weaken (fun _ _ => trivial) h

/-- The slot of the connection whose id the client has adopted. -/
def Session.connection (s : Session) : Option Connection :=
  s.server.allConnection.find? fun c => c.packHeader.id.toUInt32 = s.client.idNum

structure Session.Answers (addr : SockAddr) (bytes : Buffer) (s s' : Session) : Prop where
  client : s'.client = s.client
  server : s'.server = (s.server.receive addr bytes).1
  toServer : s'.toServer ⊆ s.toServer
  toClient : s'.toClient = s.toClient ++ sendsTo addr (s.server.receive addr bytes).2

/-- What a step can do: the client moves, the server answers a datagram, or the
network changes what is in flight. -/
inductive Session.Moves (file : Buffer) (addr : SockAddr) (s s' : Session) : Prop
  | client {event : ClientEvent} {next : Client × List Buffer}
      (hevent : ∀ bytes, event = .receive bytes → bytes ∈ s.toClient)
      (hstep : s.client.step file event = some next) (hclient : s'.client = next.1)
      (hserver : s'.server = s.server) (hto : s'.toServer = s.toServer ++ next.2)
      (hfrom : s'.toClient ⊆ s.toClient)
  | server {bytes : Buffer} (hbytes : bytes ∈ s.toServer) (h : s.Answers addr bytes s')
  | network (hclient : s'.client = s.client) (hserver : s'.server = s.server)
      (hto : s'.toServer ⊆ s.toServer) (hfrom : s'.toClient ⊆ s.toClient)

theorem Session.moves_of_step {file : Buffer} {addr : SockAddr} {s s' : Session} {a : Action}
    (h : Session.step file addr s a = some s') : Session.Moves file addr s s' := by
  have hcopy : ∀ {sent : List Buffer} {i : Nat} {bytes : Buffer}, sent[i]? = some bytes →
      sent ++ [bytes] ⊆ sent := by
    intro sent i bytes hbytes
    exact List.append_subset.mpr ⟨List.Subset.refl _,
      List.cons_subset.mpr ⟨List.mem_of_getElem? hbytes, List.nil_subset _⟩⟩
  cases a with
  | client event =>
      simp only [Session.step] at h
      split_ifs at h with hreceive
      obtain ⟨next, hstep, rfl⟩ := Option.map_eq_some_iff.mp h
      refine .client (fun bytes heq => ?_) hstep rfl rfl rfl (List.Subset.refl _)
      subst heq
      exact absurd rfl hreceive
  | clientReceive i =>
      obtain ⟨bytes, hbytes, hrest⟩ := Option.bind_eq_some_iff.mp h
      obtain ⟨next, hstep, rfl⟩ := Option.map_eq_some_iff.mp hrest
      refine .client (fun bytes' heq => ?_) hstep rfl rfl rfl List.eraseIdx_subset
      obtain rfl := ClientEvent.receive.inj heq
      exact List.mem_of_getElem? hbytes
  | serverReceive i =>
      obtain ⟨bytes, hbytes, rfl⟩ := Option.map_eq_some_iff.mp h
      exact .server (List.mem_of_getElem? hbytes) ⟨rfl, rfl, List.eraseIdx_subset, rfl⟩
  | loseToServer i =>
      simp only [Session.step] at h
      split_ifs at h
      obtain rfl := Option.some.inj h
      exact .network rfl rfl List.eraseIdx_subset (List.Subset.refl _)
  | loseToClient i =>
      simp only [Session.step] at h
      split_ifs at h
      obtain rfl := Option.some.inj h
      exact .network rfl rfl (List.Subset.refl _) List.eraseIdx_subset
  | copyToServer i =>
      obtain ⟨bytes, hbytes, rfl⟩ := Option.map_eq_some_iff.mp h
      exact .network rfl rfl (hcopy hbytes) (List.Subset.refl _)
  | copyToClient i =>
      obtain ⟨bytes, hbytes, rfl⟩ := Option.map_eq_some_iff.mp h
      exact .network rfl rfl (List.Subset.refl _) (hcopy hbytes)

end Cs118.Confundo
