import Cs118.Lib.Script
import Cs118.Router.ArpCache
import Cs118.Router.Cksum
import Cs118.Router.Printing
/-!
# The packet handlers (`simple-router.cpp`)

`handlePacket` as the script of its calls: the ARP cache's methods, each a step of its
own, and `sendPacket`.  `lookup`, `insertArpEntry` and `queueRequest` take the cache's
lock; `sendPendingPackets` takes none, and is a step all the same.  The `get…` helpers
fail where the code would copy bytes from beyond the frame.
-/

namespace Cs118.Router

open Cs118.Lib
open Cs118.Lib.Bytes
open Cs118.Lib.Text (bytesOf)

/-- The calls a handler makes.  `sendPacket` is told what the frame is for. -/
inductive ArpCall
  | lookup (ip : UInt32)
  | insertArpEntry (mac : EtherAddr) (ip : UInt32)
  | queueRequest (ip : UInt32) (packet : Buffer) (iface : String)
  | sendPendingPackets (reply : ArpHdr) (dstIp : UInt32)
  | sendPacket (packet : Buffer) (outIface : String) (purpose : Purpose)
deriving DecidableEq, Repr

def ArpCall.Reply : ArpCall → Type
  | .lookup _ => Option ArpEntry
  | .insertArpEntry _ _ => Option ArpRequest
  | .queueRequest _ _ _ => ArpRequest
  | .sendPendingPackets _ _ => Unit
  | .sendPacket _ _ _ => Unit

abbrev Handler : Type → Type := Script ArpCall ArpCall.Reply Fault

namespace Handler

def lookup (ip : UInt32) : Handler (Option ArpEntry) := Script.perform (ArpCall.lookup ip)

def insertArpEntry (mac : EtherAddr) (ip : UInt32) : Handler (Option ArpRequest) :=
  Script.perform (ArpCall.insertArpEntry mac ip)

def queueRequest (ip : UInt32) (packet : Buffer) (iface : String) : Handler ArpRequest :=
  Script.perform (ArpCall.queueRequest ip packet iface)

def sendPendingPackets (reply : ArpHdr) (dstIp : UInt32) : Handler Unit :=
  Script.perform (ArpCall.sendPendingPackets reply dstIp)

def sendPacket (packet : Buffer) (outIface : String) (purpose : Purpose) : Handler Unit :=
  Script.perform (ArpCall.sendPacket packet outIface purpose)

def deref {α : Type} : Option α → Handler α
  | none => .throw .nullDeref
  | some a => pure a

/-- Copy out a structure of `packet[offset .. offset + size]`. -/
def copyOut {α : Type} (load : Buffer → α) (packet : Buffer) (offset size : Nat) : Handler α :=
  if packet.length < offset + size then .throw .outOfBounds else pure (load (packet.drop offset))

end Handler

open Handler

def getEthernetHeader (packet : Buffer) : Handler EthernetHdr :=
  copyOut EthernetHdr.load packet 0 14

def getArpPacket (packet : Buffer) : Handler ArpHdr := copyOut ArpHdr.load packet 14 28

def getIpPacket (packet : Buffer) : Handler IpHdr := copyOut IpHdr.load packet 14 20

def getIcmpPacket (packet : Buffer) : Handler IcmpHdr := copyOut IcmpHdr.load packet 34 4

/-- The source address the handlers copy from `packet[6]`. -/
def sourceMac (packet : Buffer) : EtherAddr := EtherAddr.load (packet.drop 6)

def learn (packet : Buffer) (ip : UInt32) : Handler Unit := do
  match ← Handler.lookup ip with
  | none => discard (Handler.insertArpEntry (sourceMac packet) ip)
  | some _ => pure ()

/-! ## ARP -/

def assembleArpInterfaceReplyPacket (myInterface : Interface) (eHdr : EthernetHdr)
    (arpHeader : ArpHdr) : Buffer :=
  let eHdr := { eHdr with etherDhost := eHdr.etherShost, etherShost := myInterface.addr }
  let arpHeader :=
    { arpHeader with
      arpOp := htons arpOpReply
      arpTip := arpHeader.arpSip
      arpTha := arpHeader.arpSha
      arpSip := myInterface.ip
      arpSha := myInterface.addr }
  setBytes (setBytes (List.replicate 42 0) 0 eHdr.image) 14 arpHeader.image

def handleArpPacket (t : RouterTables) (packet : Buffer) (eHdr : EthernetHdr) :
    Handler Unit := do
  let arpPacket ← getArpPacket packet
  if arpPacket.arpOp = ntohs arpOpRequest then
    learn packet arpPacket.arpSip
    match t.findIfaceByIp arpPacket.arpTip with
    | some myInterface =>
      sendPacket (assembleArpInterfaceReplyPacket myInterface eHdr arpPacket) myInterface.name
        .arpReply
    | none => pure ()
  else if arpPacket.arpOp = htons arpOpReply then
    match ← Handler.lookup arpPacket.arpSip with
    | none =>
      discard (Handler.insertArpEntry (sourceMac packet) arpPacket.arpSip)
      sendPendingPackets arpPacket arpPacket.arpSip
    | some _ => pure ()
  else pure ()

/-! ## ICMP -/

/-- `sizeof` of the `std::vector` that holds the frame. -/
def sizeofVector : Int := 24

/-- The reply to an ICMP echo.  `temp` is the frame with its ICMP checksum zeroed. -/
def echoReply (myInterface : Interface) (timeExceed : Nat) (temp : Buffer) : Buffer :=
  let icmpType : UInt8 := if timeExceed = 0 then 0x00 else 0x0b
  let icmpSum := cksum (temp.drop 34) (sizeofVector - 34)
  let temp := setBytes temp 34 [icmpType]
  let temp := setBytes temp 36 (image16 icmpSum)
  let temp := setBytes temp 24 [0x00]
  -- `uint8_t ip_sum`: the low byte only
  let ipSum := (cksum (getBytes temp 14 20) 20).toUInt8
  let temp := setBytes temp 24 [ipSum]
  let tempSrcIp := getBytes temp 30 4
  let temp := setBytes temp 30 (getBytes temp 26 4)
  let temp := setBytes temp 26 tempSrcIp
  let temp := setBytes temp 0 (getBytes temp 6 6)
  setBytes temp 6 myInterface.addr.bytes

/-- The ICMP error for a frame of at least 42 bytes. -/
def icmpError (t : RouterTables) (myInterface : Interface) (packet : Buffer) : Buffer :=
  let temp := List.replicate 70 0
  let temp := setBytes temp 0 (getBytes packet 0 34)
  let temp := setBytes temp 42 (getBytes packet 14 28)
  let tempDestIp := load32 (packet.drop 30)
  let forUs := (t.findIfaceByIp tempDestIp).isSome
  let icmpType : UInt8 := if forUs then 0x03 else 0x0b
  let icmpCode : UInt8 := if forUs then 0x03 else 0x00
  let temp := setBytes temp 34 [icmpType]
  let temp := setBytes temp 35 [icmpCode]
  let temp := setBytes temp 36 (image16 (cksum (temp.drop 34) ((temp.length : Int) - 34)))
  let ipLength := htons (ntohs (load16 (temp.drop 16)) - 0x04)
  let temp := setBytes temp 24 (image16 0)
  let temp := setBytes temp 23 [0x01]
  let temp := setBytes temp 22 [0x40]
  let temp := setBytes temp 16 (image16 ipLength)
  let tempSrcIp := if forUs then tempDestIp else myInterface.ip
  let temp := setBytes temp 30 (getBytes temp 26 4)
  let temp := setBytes temp 26 (image32 tempSrcIp)
  let temp := setBytes temp 24 (image16 (cksum (getBytes temp 14 20) 20))
  let temp := setBytes temp 0 (getBytes temp 6 6)
  setBytes temp 6 myInterface.addr.bytes

def handleIcmpPacket (t : RouterTables) (tempIface : String) (packet : Buffer)
    (timeExceed : Nat) : Handler Unit := do
  let icmpPacket ← getIcmpPacket packet
  if icmpPacket.icmpType = 8 then
    let temp := setBytes packet 36 (image16 0)
    if cksum (temp.drop 34) (sizeofVector - 34) = 0xffff then
      let myInterface ← deref (t.findIfaceByName tempIface)
      sendPacket (echoReply myInterface timeExceed temp) myInterface.name .echoReply
    else pure ()
  else if timeExceed = 1 then
    -- the quoted datagram ends at byte 42
    let _ ← copyOut id packet 14 28
    let myInterface ← deref (t.findIfaceByName tempIface)
    sendPacket (icmpError t myInterface packet) myInterface.name .icmpError
  else pure ()

/-! ## IPv4 -/

def assembleIPPacket (replyPacket : Buffer) (ipHeader : IpHdr) (eHdr : EthernetHdr) : Buffer :=
  setBytes (setBytes replyPacket 0 eHdr.image) 14 ipHeader.image

def updateSum (ipPacket : IpHdr) : IpHdr :=
  let ipPacket := { ipPacket with ipSum := 0x0000 }
  { ipPacket with ipSum := cksum ipPacket.image 20 }

/-- The forwarding branch for a destination in the ARP cache.  The exception of
the route lookup is caught there. -/
def forwardPacket (t : RouterTables) (packet : Buffer) (eHdr : EthernetHdr)
    (ipPacket : IpHdr) : Handler Unit :=
  match t.routingTable.lookup ipPacket.ipDst with
  | none => pure ()
  | some matchedEntry => do
    let ipPacket := updateSum ipPacket
    let destMac ←
      Handler.lookup (if ipToString matchedEntry.dest = bytesOf "0.0.0.0" then ipPacket.ipDst
        else matchedEntry.dest)
    let interToForward ← deref (t.findIfaceByName matchedEntry.ifName)
    let destMac ← deref destMac
    let eHdr := { eHdr with etherShost := interToForward.addr, etherDhost := destMac.mac }
    sendPacket (assembleIPPacket packet ipPacket eHdr) matchedEntry.ifName (.forwarded packet)

def handleIpPacket (t : RouterTables) (tempIface : String) (packet : Buffer)
    (eHdr : EthernetHdr) : Handler Unit := do
  let ipPacket ← getIpPacket packet
  let ttl : UInt8 := ipPacket.ipTtl - 1
  if cksum ipPacket.image 20 = 0xffff then
    let ipPacket := { ipPacket with ipTtl := ttl }
    learn packet ipPacket.ipSrc
    match t.findIfaceByIp ipPacket.ipDst with
    | some _ =>
      if ipPacket.ipP = 0x01 then handleIcmpPacket t tempIface packet 0
      else if ipPacket.ipP = 0x11 then handleIcmpPacket t tempIface packet 1
      else pure ()
    | none =>
      if ttl ≤ 0 then
        learn packet ipPacket.ipSrc
        handleIcmpPacket t tempIface packet 1
      else
        match ← Handler.lookup ipPacket.ipDst with
        | some _ => forwardPacket t packet eHdr ipPacket
        | none =>
          let myInter ← deref (t.findIfaceByMac eHdr.etherDhost)
          discard (Handler.queueRequest ipPacket.ipDst packet myInter.name)
  else pure ()

def handlePacket (t : RouterTables) (packet : Buffer) (inIface : String) : Handler Unit :=
  match t.findIfaceByName inIface with
  | none => pure ()
  | some _ => do
    let etherHdr ← getEthernetHeader packet
    if etherHdr.etherType = ntohs ethertypeArp then handleArpPacket t packet etherHdr
    else if etherHdr.etherType = ntohs ethertypeIp then handleIpPacket t inIface packet etherHdr
    else pure ()

end Cs118.Router
