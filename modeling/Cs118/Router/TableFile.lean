import Cs118.Lib.Text
import Cs118.Router.RoutingTable
/-!
# Loading the routing table

`RoutingTable::load`.  Its four field buffers are declared outside the loop and never
initialised, so what they hold before the first line is an argument.  What `perror` prints
for a file that cannot be read is left out.
-/

namespace Cs118.Router

open Cs118.Lib
open Cs118.Lib.Bytes
open Cs118.Lib.Text

/-- `BUFSIZ` of glibc, the size of `line`. -/
def bufsiz : Nat := 8192

def fieldSize : Nat := 32

/-- `dest`, `gw`, `mask` and `iface`: the string that is found in each. -/
structure FieldBuffers where
  dest : Buffer
  gw : Buffer
  mask : Buffer
  iface : Buffer
deriving DecidableEq, Repr

def store (word : Buffer) : Except Fault Buffer :=
  if word.length < fieldSize then .ok word else .error .outOfBounds

/-- `sscanf(line, "%s %s %s %s", dest, gw, mask, iface)`.  Its result is ignored: the
buffers of the conversions that fail keep what they held. -/
def scanFields (line : Buffer) (old : FieldBuffers) : Except Fault FieldBuffers :=
  match scanString line with
  | none => .ok old
  | some (dest, rest) => do
    let old := { old with dest := ← store dest }
    match scanString rest with
    | none => .ok old
    | some (gw, rest) => do
      let old := { old with gw := ← store gw }
      match scanString rest with
      | none => .ok old
      | some (mask, rest) => do
        let old := { old with mask := ← store mask }
        match scanString rest with
        | none => .ok old
        | some (iface, _) => do
          return { old with iface := ← store iface }

def FieldBuffers.entry (fields : FieldBuffers) : Except Buffer RoutingTableEntry :=
  match Text.inetAton fields.dest with
  | none => .error fields.dest
  | some dest =>
    match Text.inetAton fields.gw with
    | none => .error fields.gw
    | some gw =>
      match Text.inetAton fields.mask with
      | none => .error fields.mask
      | some mask => .ok ⟨dest, gw, mask, asString fields.iface⟩

def cannotConvert (field : Buffer) : String :=
  "Error loading routing table, cannot convert " ++ asString field ++ " to valid IP\n"

def RoutingTable.addEntry (table : RoutingTable) (entry : RoutingTableEntry) : RoutingTable :=
  ⟨table.entries ++ [entry]⟩

structure Loaded where
  returned : Bool
  table : RoutingTable
  stderr : List String
deriving DecidableEq, Repr

def loadLines (table : RoutingTable) (fields : FieldBuffers) :
    List Buffer → Except Fault Loaded
  | [] => .ok ⟨true, table, []⟩
  | line :: rest =>
    match scanFields (cString line) fields with
    | .error fault => .error fault
    | .ok fields =>
      match fields.entry with
      | .error field => .ok ⟨false, table, [cannotConvert field]⟩
      | .ok entry => loadLines (table.addEntry entry) fields rest

/-- `load`, where `none` is a file that `access` does not let it read.  A file of `n`
bytes is read in at most `n` calls of `fgets`. -/
def RoutingTable.load (table : RoutingTable) (fields : FieldBuffers) (file : Option Buffer) :
    Except Fault Loaded :=
  match file with
  | none => .ok ⟨false, table, []⟩
  | some stream => loadLines table fields (reads bufsiz stream.length stream)

end Cs118.Router
