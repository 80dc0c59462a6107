import Cs118.Router.RoutingTable
/-!
# The ARP cache and its request queue (`arp-cache.cpp`)

Each public method is one function on the cache.  Time is in nanoseconds and is
an argument of the methods that read the clock.  What a method sends, drops or
learns is returned as a list of events, which name what the code's pointers stand
for (which request, which stored frame).
-/

namespace Cs118.Router

open Cs118.Lib.Bytes

def seconds (n : Nat) : Nat := n * 1000000000

def srArpcacheTo : Nat := seconds 30
def maxSentTime : UInt32 := 5

structure PendingPacket where
  packet : Buffer
  iface : String
deriving DecidableEq, Repr

structure ArpRequest where
  ip : UInt32
  timeSent : Nat
  nTimesSent : UInt32
  packets : List PendingPacket
deriving DecidableEq, Repr

structure ArpEntry where
  mac : EtherAddr
  ip : UInt32
  timeAdded : Nat
  isValid : Bool
deriving DecidableEq, Repr

structure ArpCache where
  cacheEntries : List ArpEntry
  arpRequests : List ArpRequest
deriving DecidableEq, Repr

inductive Purpose
  | arpRequest (ip : UInt32)
  | arpReply
  | echoReply
  | icmpError
  | forwarded (arrived : Buffer)
  | released (ip : UInt32) (queued : Buffer)
deriving DecidableEq, Repr

inductive Event
  | sent (packet : Buffer) (iface : String) (purpose : Purpose)
  | learned (ip : UInt32)
  | queued (ip : UInt32) (packet : Buffer)
  | gaveUp (ip : UInt32) (packets : List Buffer)
  | cleared (requests : List ArpRequest)
deriving DecidableEq, Repr

def ArpRequest.frames (request : ArpRequest) : List Buffer :=
  request.packets.map (·.packet)

/-! ## Sending -/

/-- The frame `sendPendingPackets` makes of a stored one. -/
def releaseFrame (reply : ArpHdr) (packet : Buffer) : Buffer :=
  let ethHdr : EthernetHdr := ⟨reply.arpSha, reply.arpTha, htons ethertypeIp⟩
  let sendpacket := List.replicate packet.length 0
  let sendpacket := setBytes sendpacket 0 ethHdr.image
  setBytes sendpacket 14 (getBytes packet 14 (packet.length - 14))

/-- The broadcast `handleArpRequest` sends. -/
def arpRequestFrame (sendInterface : Interface) (ip : UInt32) : Buffer :=
  let ethHeader : EthernetHdr := ⟨.broadcast, sendInterface.addr, htons ethertypeArp⟩
  let arpHeader : ArpHdr :=
    { arpHrd := htons 0x0001
      arpPro := htons 0x0800
      arpHln := 6
      arpPln := 4
      arpOp := htons arpOpRequest
      arpSha := sendInterface.addr
      arpSip := sendInterface.ip
      arpTha := .broadcast
      arpTip := ip }
  setBytes (setBytes (List.replicate 42 0) 0 ethHeader.image) 14 arpHeader.image

/-- The loop of `sendPendingPackets`; a failing lookup ends it half way. -/
def sendPackets (t : RouterTables) (reply : ArpHdr) (dstIp : UInt32) :
    List PendingPacket → List Event × Option Fault
  | [] => ([], none)
  | pending :: rest =>
    if pending.packet.length < 14 then ([], some .outOfBounds)
    else
      match t.sendInterface dstIp with
      | .error fault => ([], some fault)
      | .ok iface =>
        let next := sendPackets t reply dstIp rest
        (.sent (releaseFrame reply pending.packet) iface.name (.released dstIp pending.packet) ::
          next.1, next.2)

/-- `handleArpRequest`, where `none` in place of the request is `isRemoved`. -/
def handleArpRequest (t : RouterTables) (now : Nat) (req : ArpRequest) :
    Except Fault (Option ArpRequest × List Event) :=
  if seconds 1 < now - req.timeSent then
    if maxSentTime ≤ req.nTimesSent then .ok (none, [.gaveUp req.ip req.frames])
    else
      match t.sendInterface req.ip with
      | .error fault => .error fault
      | .ok iface =>
        .ok (some { req with timeSent := now, nTimesSent := req.nTimesSent + 1 },
          [.sent (arpRequestFrame iface req.ip) iface.name (.arpRequest req.ip)])
  else .ok (some req, [])

/-- The loop over the requests.  It is left as soon as one has been removed. -/
def checkRequests (t : RouterTables) (now : Nat) :
    List ArpRequest → List ArpRequest × List Event × Option Fault
  | [] => ([], [], none)
  | req :: rest =>
    match handleArpRequest t now req with
    | .error fault => (req :: rest, [], some fault)
    | .ok (none, events) => (rest, events, none)
    | .ok (some req', events) =>
      let next := checkRequests t now rest
      (req' :: next.1, events ++ next.2.1, next.2.2)

/-! ## Queueing -/

/-- `find_if`, the insertion at the end where it fails, and `push_back`. -/
def pushPacket (ip : UInt32) (pending : PendingPacket) :
    List ArpRequest → List ArpRequest × ArpRequest
  | [] =>
    let request : ArpRequest := ⟨ip, 0, 0, [pending]⟩
    ([request], request)
  | request :: rest =>
    if request.ip = ip then
      let request := { request with packets := request.packets ++ [pending] }
      (request :: rest, request)
    else
      let next := pushPacket ip pending rest
      (request :: next.1, next.2)

namespace ArpCache

def empty : ArpCache := ⟨[], []⟩

def findRequest (cache : ArpCache) (ip : UInt32) : Option ArpRequest :=
  cache.arpRequests.find? fun request => request.ip = ip

def lookup (cache : ArpCache) (ip : UInt32) : Option ArpEntry :=
  cache.cacheEntries.find? fun entry => entry.isValid ∧ entry.ip = ip

def insertArpEntry (cache : ArpCache) (now : Nat) (mac : EtherAddr) (ip : UInt32) :
    ArpCache × Option ArpRequest :=
  ({ cache with cacheEntries := cache.cacheEntries ++ [⟨mac, ip, now, true⟩] },
    cache.findRequest ip)

def queueRequest (cache : ArpCache) (ip : UInt32) (packet : Buffer) (iface : String) :
    ArpCache × ArpRequest :=
  let next := pushPacket ip ⟨packet, iface⟩ cache.arpRequests
  ({ cache with arpRequests := next.1 }, next.2)

/-- The request is removed only when all its packets have been sent. -/
def sendPendingPackets (cache : ArpCache) (t : RouterTables) (reply : ArpHdr) (dstIp : UInt32) :
    ArpCache × List Event × Option Fault :=
  match cache.findRequest dstIp with
  | none => (cache, [], none)
  | some request =>
    match sendPackets t reply dstIp request.packets with
    | (events, some fault) => (cache, events, some fault)
    | (events, none) =>
      ({ cache with
          arpRequests := cache.arpRequests.eraseP fun request => request.ip = dstIp },
        events, none)

def clear (_ : ArpCache) : ArpCache := empty

def periodicCheckArpRequestsAndCacheEntries (cache : ArpCache) (t : RouterTables) (now : Nat) :
    ArpCache × List Event × Option Fault :=
  match checkRequests t now cache.arpRequests with
  | (requests, events, some fault) => ({ cache with arpRequests := requests }, events, some fault)
  | (requests, events, none) =>
    (⟨cache.cacheEntries.filter fun entry => entry.isValid, requests⟩, events, none)

def markExpired (now : Nat) (entry : ArpEntry) : ArpEntry :=
  if entry.isValid ∧ srArpcacheTo < now - entry.timeAdded then { entry with isValid := false }
  else entry

def ticker (cache : ArpCache) (t : RouterTables) (now : Nat) :
    ArpCache × List Event × Option Fault :=
  periodicCheckArpRequestsAndCacheEntries
    { cache with cacheEntries := cache.cacheEntries.map (markExpired now) } t now

end ArpCache

end Cs118.Router
