import Cs118.Router.TableFile
import Cs118.Router.System
/-!
# Starting the router

`loadIfconfig`, and `Router::run` of `core/main.cpp` up to the first `reset`: the routing
table, then the addresses of the interfaces, then the ports.  What the Ice runtime does in
between, and what is printed, is left out.
-/

namespace Cs118.Router

open Cs118.Lib.Bytes
open Cs118.Lib.Text

def assign (name : String) (ip : UInt32) : List (String × UInt32) → List (String × UInt32)
  | [] => [(name, ip)]
  | first :: rest => if first.1 = name then (name, ip) :: rest else first :: assign name ip rest

/-- `std::getline` takes the newline out of the stream and leaves it out of the string. -/
def getline (line : Buffer) : Buffer := line.takeWhile (· != newline)

/-- `>>` into an empty string, which stays empty where no word is left. -/
def extract (text : Buffer) : Buffer × Buffer := (scanString text).getD ([], [])

def invalidIp (ip iface : Buffer) : String :=
  "Invalid IP address `" ++ asString ip ++ "` for interface `" ++ asString iface ++ "`"

def loadIfconfigLines (ifNameToIpMap : List (String × UInt32)) :
    List Buffer → Except String (List (String × UInt32))
  | [] => .ok ifNameToIpMap
  | line :: rest =>
    let ifLine := getline line
    let iface := extract ifLine
    let ip := extract iface.2
    match Cs118.Lib.Text.inetAton (cString ip.1) with
    | none => .error (invalidIp ip.1 iface.1)
    | some addr => loadIfconfigLines (assign (asString iface.1) addr ifNameToIpMap) rest

/-- `loadIfconfig`, where a file that cannot be opened has no lines. -/
def loadIfconfig (ifNameToIpMap : List (String × UInt32)) (file : Option Buffer) :
    Except String (List (String × UInt32)) :=
  loadIfconfigLines ifNameToIpMap (lines (file.getD []))

/-- Why the program does not come to its first `reset`. -/
inductive StartFailure
  | fault (fault : Fault)
  | cannotLoadTable
  | invalidConfig (message : String)
deriving DecidableEq, Repr

/-- `Router::run`.  `stack` is what the buffers of `load` hold. -/
def startUp (stack : FieldBuffers) (rtFile ifFile : Option Buffer) (ports : List Port)
    (now : Nat) : Except StartFailure World :=
  match RoutingTable.load ⟨[]⟩ stack rtFile with
  | .error fault => .error (.fault fault)
  | .ok loaded =>
    if loaded.returned then
      match loadIfconfig [] ifFile with
      | .error message => .error (.invalidConfig message)
      | .ok ifNameToIpMap => .ok ((World.start loaded.table ifNameToIpMap now).reset ports)
    else .error .cannotLoadTable

end Cs118.Router
