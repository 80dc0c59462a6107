import Cs118.Lib.Run
import Cs118.Router.SimpleRouter
/-!
# The running router

One thread handles frames, another makes a ticker pass from time to time.  No lock
is held from one call of a handler to the next, so a pass may fall between any two
of them.  The trace records what has been sent, learned, queued and dropped.
-/

namespace Cs118.Router

open Cs118.Lib
open Cs118.Lib.Bytes
open Cs118.Lib.Run

/-- The members of `SimpleRouter`; `temp_iface` is an argument of the handlers. -/
structure SimpleRouter where
  tables : RouterTables
  ifNameToIpMap : List (String × UInt32)
  arp : ArpCache
deriving DecidableEq, Repr

structure Port where
  name : String
  mac : EtherAddr
deriving DecidableEq, Repr

def ifacesOf (ifNameToIpMap : List (String × UInt32)) (ports : List Port) : List Interface :=
  ports.foldl
    (fun ifaces port =>
      match ifNameToIpMap.lookup port.name with
      | none => ifaces
      | some ip => insertIface ⟨port.name, port.mac, ip⟩ ifaces)
    []

def SimpleRouter.reset (r : SimpleRouter) (ports : List Port) : SimpleRouter :=
  { r with
    tables := { r.tables with ifaces := ifacesOf r.ifNameToIpMap ports }
    arp := r.arp.clear }

structure World where
  router : SimpleRouter
  now : Nat
  trace : List Event
deriving DecidableEq, Repr

namespace World

def setArp (w : World) (arp : ArpCache) (events : List Event) : World :=
  { w with router := { w.router with arp := arp }, trace := w.trace ++ events }

@[simp] theorem setArp_arp (w : World) (arp : ArpCache) (events : List Event) :
    (w.setArp arp events).router.arp = arp := rfl

@[simp] theorem setArp_tables (w : World) (arp : ArpCache) (events : List Event) :
    (w.setArp arp events).router.tables = w.router.tables := rfl

@[simp] theorem setArp_now (w : World) (arp : ArpCache) (events : List Event) :
    (w.setArp arp events).now = w.now := rfl

@[simp] theorem setArp_trace (w : World) (arp : ArpCache) (events : List Event) :
    (w.setArp arp events).trace = w.trace ++ events := rfl

def toExcept (fault : Option Fault) : Except Fault Unit :=
  match fault with
  | none => .ok ()
  | some fault => .error fault

def perform (w : World) : (call : ArpCall) → World × Except Fault call.Reply
  | .lookup ip => (w, .ok (w.router.arp.lookup ip))
  | .insertArpEntry mac ip =>
    let next := w.router.arp.insertArpEntry w.now mac ip
    (w.setArp next.1 [.learned ip], .ok next.2)
  | .queueRequest ip packet iface =>
    let next := w.router.arp.queueRequest ip packet iface
    (w.setArp next.1 [.queued ip packet], .ok next.2)
  | .sendPendingPackets reply dstIp =>
    let next := w.router.arp.sendPendingPackets w.router.tables reply dstIp
    (w.setArp next.1 next.2.1, toExcept next.2.2)
  | .sendPacket packet outIface purpose =>
    (w.setArp w.router.arp [.sent packet outIface purpose], .ok ())

def tick (w : World) : World × Option Fault :=
  let next := w.router.arp.ticker w.router.tables w.now
  (w.setArp next.1 next.2.1, next.2.2)

def reset (w : World) (ports : List Port) : World :=
  { w with
    router := w.router.reset ports
    trace := w.trace ++ [.cleared w.router.arp.arpRequests] }

/-- `handlePacket` without a ticker pass in between. -/
def receive (w : World) (packet : Buffer) (inIface : String) : World × Except Fault Unit :=
  (handlePacket w.router.tables packet inIface).exec perform w

end World

/-! ## Interleaving -/

inductive Status
  | idle
  | handling (rest : Handler Unit)

structure System where
  world : World
  status : Status

inductive Action
  | receive (packet : Buffer) (inIface : String)
  | call
  | tick
  | reset (ports : List Port)
  | elapse (time : Nat)
deriving DecidableEq, Repr

/-- Where the handling thread stands after a call.  An uncaught exception ends the
handling of the frame; the other faults end the program. -/
def settle : Handler Unit → Option Status
  | .pure _ => some .idle
  | .throw .runtimeError => some .idle
  | .throw _ => none
  | .call call rest => some (.handling (.call call rest))

/-- One step, and `none` if it is not possible or the program does not survive it.
The ticker thread has no handler for exceptions. -/
def System.step (s : System) : Action → Option System
  | .receive packet inIface =>
    match s.status with
    | .idle =>
      (settle (handlePacket s.world.router.tables packet inIface)).map fun status =>
        { s with status := status }
    | .handling _ => none
  | .call =>
    match s.status with
    | .idle => none
    | .handling rest =>
      let next := Script.resume World.perform s.world rest
      (settle next.2).map fun status => ⟨next.1, status⟩
  | .tick =>
    match s.world.tick with
    | (world, none) => some { s with world := world }
    | (_, some _) => none
  | .reset ports =>
    match s.status with
    | .idle => some { s with world := s.world.reset ports }
    | .handling _ => none
  | .elapse time => some { s with world := { s.world with now := s.world.now + time } }

/-- A router that has read its configuration and has not been reset yet. -/
def World.start (routingTable : RoutingTable) (ifNameToIpMap : List (String × UInt32))
    (now : Nat) : World :=
  ⟨⟨⟨routingTable, []⟩, ifNameToIpMap, ArpCache.empty⟩, now, []⟩

/-- The states of a running router, with ticker passes between any two calls. -/
def System.Reachable (routingTable : RoutingTable) (ifNameToIpMap : List (String × UInt32))
    (s : System) : Prop :=
  ∃ now, Reach System.step (fun _ => True) ⟨World.start routingTable ifNameToIpMap now, .idle⟩ s

/-! ## One frame at a time -/

inductive Turn
  | receive (packet : Buffer) (inIface : String)
  | tick
  | reset (ports : List Port)
  | elapse (time : Nat)
deriving DecidableEq, Repr

/-- `none` where the program does not survive. -/
def World.step (w : World) : Turn → Option World
  | .receive packet inIface =>
    match w.receive packet inIface with
    | (w', .ok ()) => some w'
    | (w', .error .runtimeError) => some w'
    | (_, .error _) => none
  | .tick =>
    match w.tick with
    | (w', none) => some w'
    | (_, some _) => none
  | .reset ports => some (w.reset ports)
  | .elapse time => some { w with now := w.now + time }

theorem World.step_receive {w w' : World} {packet : Buffer} {inIface : String} :
    w.step (.receive packet inIface) = some w' ↔
      w.receive packet inIface = (w', .ok ()) ∨
        w.receive packet inIface = (w', .error .runtimeError) := by
  rcases hreceive : w.receive packet inIface with ⟨mid, fault | result⟩
  · cases fault <;> simp [World.step, hreceive]
  · simp [World.step, hreceive]

theorem reach_of_exec {p : Handler Unit} {w w' : World} {result : Except Fault Unit}
    (h : p.exec World.perform w = (w', result))
    (hsurvives : result = .ok () ∨ result = .error .runtimeError) :
    ∃ status, settle p = some status ∧
      Reach System.step (fun _ => True) ⟨w, status⟩ ⟨w', .idle⟩ := by
  induction p generalizing w with
  | pure a =>
      obtain ⟨rfl, rfl⟩ : w = w' ∧ .ok a = result := by simpa using h
      exact ⟨.idle, rfl, .refl _⟩
  | throw fault =>
      obtain ⟨rfl, rfl⟩ : w = w' ∧ .error fault = result := by simpa using h
      obtain rfl : fault = .runtimeError := by simpa using hsurvives
      exact ⟨.idle, rfl, .refl _⟩
  | call op k ih =>
      refine ⟨.handling (.call op k), rfl, ?_⟩
      rcases hcall : w.perform op with ⟨mid, fault | reply⟩
      · rw [Script.exec_call_error hcall] at h
        obtain ⟨rfl, rfl⟩ : mid = w' ∧ .error fault = result := by simpa using h
        obtain rfl : fault = .runtimeError := by simpa using hsurvives
        exact .single (a := .call) trivial (by simp [System.step, Script.resume, hcall, settle])
      · rw [Script.exec_call_ok hcall] at h
        obtain ⟨status, hstatus, hreach⟩ := ih reply h
        have hstep : System.step ⟨w, .handling (.call op k)⟩ .call = some ⟨mid, status⟩ := by
          simp [System.step, Script.resume, hcall, hstatus]
        exact (Reach.single trivial hstep).trans hreach

/-- A router that handles one frame at a time is a router. -/
theorem World.step_reach {w w' : World} {turn : Turn} (h : w.step turn = some w') :
    Reach System.step (fun _ => True) ⟨w, .idle⟩ ⟨w', .idle⟩ := by
  cases turn with
  | receive packet inIface =>
      obtain ⟨result, hreceive, hsurvives⟩ : ∃ result, w.receive packet inIface = (w', result) ∧
          (result = .ok () ∨ result = .error .runtimeError) :=
        (World.step_receive.mp h).elim (fun heq => ⟨_, heq, Or.inl rfl⟩)
          fun heq => ⟨_, heq, Or.inr rfl⟩
      obtain ⟨status, hstatus, hreach⟩ := reach_of_exec hreceive hsurvives
      have hstep : System.step ⟨w, .idle⟩ (.receive packet inIface) = some ⟨w, status⟩ := by
        simp [System.step, hstatus]
      exact (Reach.single trivial hstep).trans hreach
  | tick =>
      refine .single (a := .tick) trivial ?_
      rcases htick : w.tick with ⟨mid, fault | fault⟩
      · simpa [World.step, System.step, htick] using h
      · simp [World.step, htick] at h
  | reset ports => exact .single (a := .reset ports) trivial (by simpa [World.step, System.step] using h)
  | elapse time => exact .single (a := .elapse time) trivial (by simpa [World.step, System.step] using h)

/-- The states of a router that handles one frame at a time. -/
def World.Reachable (routingTable : RoutingTable) (ifNameToIpMap : List (String × UInt32))
    (w : World) : Prop :=
  ∃ now turns, run World.step (World.start routingTable ifNameToIpMap now) turns = some w

theorem World.Reachable.system {routingTable : RoutingTable}
    {ifNameToIpMap : List (String × UInt32)} {w : World}
    (h : World.Reachable routingTable ifNameToIpMap w) :
    System.Reachable routingTable ifNameToIpMap ⟨w, .idle⟩ := by
  obtain ⟨now, turns, hrun⟩ := h
  refine ⟨now, ?_⟩
  exact run_invariant
    (I := fun w : World => Reach System.step (fun _ => True)
      ⟨World.start routingTable ifNameToIpMap now, .idle⟩ ⟨w, .idle⟩)
    (fun _ _ _ hw hstep => hw.trans (World.step_reach hstep)) (.refl _) hrun

/-! ## The topology of the project

`RTABLE` and `IP_CONFIG`, and the frames of its three hosts.  The MAC addresses are
chosen here, the emulator hands out others. -/

def inetAton (a b c d : UInt8) : UInt32 := load32 [a, b, c, d]

def projectTable : RoutingTable :=
  ⟨[⟨inetAton 0 0 0 0, inetAton 10 0 1 100, inetAton 0 0 0 0, "sw0-eth3"⟩,
    ⟨inetAton 192 168 2 2, inetAton 192 168 2 2, inetAton 255 255 255 0, "sw0-eth1"⟩,
    ⟨inetAton 172 64 3 10, inetAton 172 64 3 10, inetAton 255 255 0 0, "sw0-eth2"⟩]⟩

def projectIps : List (String × UInt32) :=
  [("sw0-eth1", inetAton 192 168 2 1), ("sw0-eth2", inetAton 172 64 3 1),
    ("sw0-eth3", inetAton 10 0 1 1), ("server1", inetAton 192 168 2 2),
    ("server2", inetAton 172 64 3 10), ("client", inetAton 10 0 1 100)]

def projectMac (n : UInt8) : EtherAddr := ⟨[2, 0, 0, 0, 0, n], rfl⟩

def projectPorts : List Port :=
  [⟨"sw0-eth1", projectMac 1⟩, ⟨"sw0-eth2", projectMac 2⟩, ⟨"sw0-eth3", projectMac 3⟩]

/-- A frame of the client to `dst` that arrives at `sw0-eth3`. -/
def clientFrame (dstMac : EtherAddr) (dst : UInt32) (ttl protocol : UInt8) (id : UInt16)
    (payload : Buffer) : Buffer :=
  let ipHeader : IpHdr :=
    { ipVHl := 0x45
      ipTos := 0
      ipLen := htons (UInt16.ofNat (20 + payload.length))
      ipId := htons id
      ipOff := 0
      ipTtl := ttl
      ipP := protocol
      ipSum := 0
      ipSrc := inetAton 10 0 1 100
      ipDst := dst }
  EthernetHdr.image ⟨dstMac, projectMac 33, htons ethertypeIp⟩ ++
    ((updateSum ipHeader).image ++ payload)

def serverArp (op : UInt16) : Buffer :=
  let arpHeader : ArpHdr :=
    { arpHrd := htons 0x0001
      arpPro := htons 0x0800
      arpHln := 6
      arpPln := 4
      arpOp := htons op
      arpSha := projectMac 31
      arpSip := inetAton 192 168 2 2
      arpTha := projectMac 1
      arpTip := inetAton 192 168 2 1 }
  EthernetHdr.image ⟨projectMac 1, projectMac 31, htons ethertypeArp⟩ ++ arpHeader.image

def clientDatagram (ttl : UInt8) : Buffer :=
  clientFrame (projectMac 3) (inetAton 192 168 2 2) ttl 0x11 0 (List.replicate 8 0)

def clientPing (id : UInt16) : Buffer :=
  clientFrame (projectMac 3) (inetAton 10 0 1 1) 64 0x01 id (8 :: List.replicate 7 0)

def projectRouter : World := (World.start projectTable projectIps 0).reset projectPorts

theorem projectRouter_reachable : World.Reachable projectTable projectIps projectRouter :=
  ⟨0, [.reset projectPorts], rfl⟩

def waitingRouter : World := (projectRouter.receive (clientDatagram 64) "sw0-eth3").1

theorem waitingRouter_reachable : World.Reachable projectTable projectIps waitingRouter :=
  ⟨0, [.reset projectPorts, .receive (clientDatagram 64) "sw0-eth3"], by decide +kernel⟩

def releasedRouter : World := (waitingRouter.receive (serverArp arpOpReply) "sw0-eth1").1

/-- The mapping of `server1` is known from a request. -/
def cachedRouter : World := (projectRouter.receive (serverArp arpOpRequest) "sw0-eth1").1

def forwardedRouter : World := (cachedRouter.receive (clientDatagram 64) "sw0-eth3").1

theorem run_releasedRouter :
    run World.step (World.start projectTable projectIps 0)
      [.reset projectPorts, .receive (clientDatagram 64) "sw0-eth3",
        .receive (serverArp arpOpReply) "sw0-eth1"] = some releasedRouter := by
  decide +kernel

theorem run_forwardedRouter :
    run World.step (World.start projectTable projectIps 0)
      [.reset projectPorts, .receive (serverArp arpOpRequest) "sw0-eth1",
        .receive (clientDatagram 64) "sw0-eth3"] = some forwardedRouter := by
  decide +kernel

end Cs118.Router
