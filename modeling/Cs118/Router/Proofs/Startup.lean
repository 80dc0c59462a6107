import Mathlib.Data.List.Induction
import Cs118.Lib.Decimal
import Cs118.Router.Startup
import Cs118.Router.Proofs.Evolution
import Cs118.Router.Proofs.Sources
import Cs118.Router.Proofs.NullSafety
import Cs118.Router.Proofs.Loading
import Cs118.Router.Proofs.PrefixMatch
/-!
# What the router starts with

Each line of the configuration must name an interface and its address, a blank one too,
and the last line for a name counts.  A port becomes an interface when the configuration
has its name, and of several ports with one name the first.
-/

namespace Cs118.Router

open Cs118.Lib
open Cs118.Lib.Bytes
open Cs118.Lib.Keyed
open Cs118.Lib.LastMax
open Cs118.Lib.Run
open Cs118.Lib.Text

/-! ## The law -/

def configEntry (line : Buffer) : Option (String × UInt32) :=
  match words line with
  | iface :: ip :: _ => (Text.inetAton (cString ip)).map fun addr => (asString iface, addr)
  | _ => none

/-- What the last line for a name says. -/
def configured (lines : List Buffer) (name : String) : Option UInt32 :=
  (lines.reverse.filterMap configEntry).lookup name

def interfaceOf (ifFile : Buffer) (ports : List Port) (name : String) : Option Interface :=
  (ports.find? fun port => port.name = name).bind fun port =>
    (configured (lines ifFile) name).map fun ip => ⟨name, port.mac, ip⟩

/-! ## Reading a line -/

theorem lines_shape {text line : Buffer} (h : line ∈ lines text) :
    ∃ body, newline ∉ body ∧ (line = body ∨ line = body ++ [newline]) := by
  induction text generalizing line with
  | nil => simp [lines] at h
  | cons c rest ih =>
      by_cases hc : c = newline
      · rw [hc, lines_newline] at h
        rcases List.mem_cons.mp h with rfl | h
        · exact ⟨[], by simp, Or.inr rfl⟩
        · exact ih h
      · have hlonger : ∀ body, newline ∉ body → newline ∉ c :: body := fun body hbody hmem =>
          (List.mem_cons.mp hmem).elim (fun heq => hc heq.symm) hbody
        cases hrest : lines rest with
        | nil =>
            rw [lines, if_neg hc, hrest] at h
            rw [List.mem_singleton.mp h]
            exact ⟨[c], hlonger [] (by simp), Or.inl rfl⟩
        | cons first more =>
            rw [lines_cons hc hrest] at h
            rw [hrest] at ih
            rcases List.mem_cons.mp h with rfl | h
            · obtain ⟨body, hbody, heq⟩ := ih List.mem_cons_self
              refine ⟨c :: body, hlonger body hbody, heq.imp ?_ ?_⟩
              · rintro rfl
                rfl
              · rintro rfl
                rfl
            · exact ih (List.mem_cons_of_mem _ h)

theorem words_concat_space (text : Buffer) {c : UInt8} (h : isSpace c = true) :
    words (text ++ [c]) = words text := by
  have hgeneral : ∀ seen, wordsFrom seen (text ++ [c]) = wordsFrom seen text := by
    induction text with
    | nil =>
        intro seen
        simp only [List.nil_append, wordsFrom, h, if_true]
    | cons first rest ih =>
        intro seen
        rw [List.cons_append, wordsFrom, wordsFrom, ih, ih]
  exact hgeneral []

theorem words_getline {text line : Buffer} (h : line ∈ lines text) :
    words (getline line) = words line := by
  obtain ⟨body, hbody, hline⟩ := lines_shape h
  have hkept : ∀ c ∈ body, (c != newline) = true := fun c hc =>
    bne_iff_ne.mpr fun heq => hbody (heq ▸ hc)
  unfold getline
  rcases hline with rfl | rfl
  · rw [List.takeWhile_eq_self_iff.mpr hkept]
  · rw [List.takeWhile_append_of_pos hkept, List.takeWhile_cons_of_neg (by simp), List.append_nil,
      words_concat_space body (by decide)]

theorem extract_configEntry (line : Buffer) :
    (Text.inetAton (cString (extract (extract line).2).1)).map
        (fun addr => (asString (extract line).1, addr)) = configEntry line := by
  unfold configEntry extract
  cases hiface : scanString line with
  | none =>
      rw [words_eq_nil hiface]
      rfl
  | some found =>
      obtain ⟨iface, rest⟩ := found
      rw [words_eq_cons hiface]
      dsimp only [Option.getD_some]
      cases hip : scanString rest with
      | none =>
          rw [words_eq_nil hip]
          rfl
      | some found =>
          obtain ⟨ip, rest⟩ := found
          rw [words_eq_cons hip]
          rfl

theorem configEntry_getline {text line : Buffer} (h : line ∈ lines text) :
    configEntry (getline line) = configEntry line := by
  unfold configEntry
  rw [words_getline h]

/-! ## The map -/

theorem lookup_assign (name other : String) (ip : UInt32) (map : List (String × UInt32)) :
    (assign name ip map).lookup other = if other = name then some ip else map.lookup other := by
  induction map with
  | nil =>
      rw [assign, List.lookup_cons]
      by_cases h : other = name
      · rw [if_pos h, beq_iff_eq.mpr h]
      · rw [if_neg h, beq_eq_false_iff_ne.mpr h]
  | cons first rest ih =>
      obtain ⟨key, value⟩ := first
      unfold assign
      by_cases hkey : key = name
      · rw [if_pos hkey, List.lookup_cons, List.lookup_cons]
        by_cases h : other = name
        · rw [if_pos h, beq_iff_eq.mpr h]
        · rw [if_neg h, beq_eq_false_iff_ne.mpr h, beq_eq_false_iff_ne.mpr (hkey ▸ h)]
      · rw [if_neg hkey, List.lookup_cons, List.lookup_cons, ih]
        by_cases h : other = key
        · have hother : other ≠ name := fun heq => hkey (h.symm.trans heq)
          rw [if_neg hother, if_neg hother]
        · rw [beq_eq_false_iff_ne.mpr h]

/-- What the loop makes of lines, the last of which comes first in `configured`. -/
theorem loadIfconfigLines_eq {text : Buffer} (rest : List Buffer)
    (hrest : ∀ line ∈ rest, line ∈ lines text) (map : List (String × UInt32)) :
    ((∃ map', loadIfconfigLines map rest = .ok map') ↔
        ∀ line ∈ rest, (configEntry line).isSome) ∧
      ∀ map', loadIfconfigLines map rest = .ok map' → ∀ name,
        map'.lookup name = (configured rest name).or (map.lookup name) := by
  induction rest generalizing map with
  | nil =>
      refine ⟨iff_of_true ⟨map, rfl⟩ (by simp), fun map' h name => ?_⟩
      rw [← Except.ok.inj h]
      rfl
  | cons line rest ih =>
      have hentry : _ = configEntry line := (extract_configEntry (getline line)).trans
        (configEntry_getline (hrest line List.mem_cons_self))
      rw [List.forall_mem_cons, ← hentry]
      rw [loadIfconfigLines]
      cases hip : Text.inetAton (cString (extract (extract (getline line)).2).1) with
      | none =>
          refine ⟨iff_of_false ?_ (by simp), fun map' h => ?_⟩
          · rintro ⟨map', h⟩
            cases h
          · cases h
      | some addr =>
          obtain ⟨hok, hlookup⟩ := ih (fun other hother => hrest other (List.mem_cons_of_mem _ hother))
            (assign (asString (extract (getline line)).1) addr map)
          refine ⟨hok.trans (by simp), fun map' h name => ?_⟩
          rw [hip, Option.map_some] at hentry
          rw [hlookup map' h name, lookup_assign]
          unfold configured
          rw [List.reverse_cons, List.filterMap_append, List.lookup_append, Option.or_assoc]
          congr 1
          simp only [List.filterMap_cons, ← hentry, List.filterMap_nil, List.lookup_cons,
            List.lookup_nil]
          by_cases hname : name = asString (extract (getline line)).1
          · rw [if_pos hname, beq_iff_eq.mpr hname]
            rfl
          · rw [if_neg hname, beq_eq_false_iff_ne.mpr hname]
            rfl

theorem lookup_loadIfconfig {file : Buffer} {map : List (String × UInt32)}
    (h : loadIfconfig [] (some file) = .ok map) (name : String) :
    map.lookup name = configured (lines file) name := by
  rw [(loadIfconfigLines_eq (lines file) (fun _ h => h) []).2 map h name]
  simp

/-- The file is accepted if every line names an interface and its address, and then the map
has for each name what the last line for it says. -/
theorem loadIfconfig_exact (file : Buffer) :
    ((∃ map, loadIfconfig [] (some file) = .ok map) ↔
        ∀ line ∈ lines file, (configEntry line).isSome) ∧
      ∀ map, loadIfconfig [] (some file) = .ok map → ∀ name,
        map.lookup name = configured (lines file) name :=
  ⟨(loadIfconfigLines_eq (lines file) (fun _ h => h) []).1, fun _ => lookup_loadIfconfig⟩

/-! ## The interfaces -/

theorem find?_insertIface {ifaces : List Interface} (h : NamesOrdered ifaces) (iface : Interface)
    (name : String) :
    (insertIface iface ifaces).find? (fun other => other.name = name) =
      (ifaces.find? fun other => other.name = name).or
        (if iface.name = name then some iface else none) := by
  induction ifaces with
  | nil =>
      unfold insertIface
      by_cases hname : iface.name = name <;> simp [hname]
  | cons first rest ih =>
      obtain ⟨hfirst, hrest⟩ := List.pairwise_cons.mp h
      by_cases hbefore : iface.name < first.name
      · rw [insertIface, if_pos hbefore]
        by_cases hname : iface.name = name
        · -- the others come after the new one, so none has its name
          have hnone : (first :: rest).find? (fun other => other.name = name) = none := by
            rw [List.find?_eq_none]
            intro other hother
            have hlt : iface.name < other.name := by
              rcases List.mem_cons.mp hother with rfl | hother
              · exact hbefore
              · exact hbefore.trans (hfirst other hother)
            simpa using fun heq => hlt.ne (hname.trans heq.symm)
          rw [List.find?_cons_of_pos (by simpa using hname), hnone, Option.none_or, if_pos hname]
        · rw [List.find?_cons_of_neg (by simpa using hname), if_neg hname, Option.or_none]
      · rw [insertIface, if_neg hbefore]
        by_cases hafter : first.name < iface.name
        · rw [if_pos hafter]
          by_cases hfound : first.name = name
          · rw [List.find?_cons_of_pos (by simpa using hfound),
              List.find?_cons_of_pos (by simpa using hfound), Option.some_or]
          · rw [List.find?_cons_of_neg (by simpa using hfound),
              List.find?_cons_of_neg (by simpa using hfound), ih hrest]
        · have hsame : first.name = iface.name :=
            le_antisymm (le_of_not_gt hbefore) (le_of_not_gt hafter)
          rw [if_neg hafter]
          by_cases hname : iface.name = name
          · rw [List.find?_cons_of_pos (by simpa using hsame.trans hname), Option.some_or]
          · rw [if_neg hname, Option.or_none]

theorem find?_ifacesOf (map : List (String × UInt32)) (ports : List Port) (name : String) :
    (ifacesOf map ports).find? (fun iface => iface.name = name) =
      (ports.find? fun port => port.name = name).bind fun port =>
        (map.lookup name).map fun ip => ⟨name, port.mac, ip⟩ := by
  induction ports using List.reverseRecOn with
  | nil => rfl
  | append_singleton ports port ih =>
      have hordered := namesOrdered_ifacesOf map ports
      have hstep : ifacesOf map (ports ++ [port]) = (map.lookup port.name).elim
          (ifacesOf map ports)
          fun ip => insertIface ⟨port.name, port.mac, ip⟩ (ifacesOf map ports) := by
        cases hip : map.lookup port.name <;> simp [ifacesOf, hip]
      rw [hstep, List.find?_append]
      by_cases hname : port.name = name
      · subst hname
        cases hip : map.lookup port.name with
        | none =>
            rw [hip] at ih
            rw [Option.elim_none]
            rw [ih]
            cases ports.find? _ <;> simp
        | some ip =>
            rw [hip] at ih
            rw [Option.elim_some]
            rw [find?_insertIface hordered, ih]
            cases ports.find? _ <;> simp
      · have hother : [port].find? (fun port => port.name = name) = none := by simp [hname]
        rw [hother, Option.or_none, ← ih]
        cases map.lookup port.name with
        | none => rfl
        | some ip =>
            rw [Option.elim_some]
            rw [find?_insertIface hordered, if_neg hname, Option.or_none]

theorem startUp_ok {stack : FieldBuffers} {rtFile ifFile : Buffer} {ports : List Port} {now : Nat}
    {w : World} (h : startUp stack (some rtFile) (some ifFile) ports now = .ok w) :
    ∃ loaded map, loadIfconfig [] (some ifFile) = .ok map ∧
      w = (World.start loaded map now).reset ports := by
  unfold startUp at h
  split at h
  · cases h
  · split_ifs at h
    split at h
    · cases h
    · next map hmap => exact ⟨_, map, hmap, (Except.ok.inj h).symm⟩

section

variable {stack : FieldBuffers} {rtFile ifFile : Buffer} {ports : List Port} {now : Nat} {w : World}

theorem startUp_findIfaceByName
    (h : startUp stack (some rtFile) (some ifFile) ports now = .ok w) (name : String) :
    w.router.tables.findIfaceByName name = interfaceOf ifFile ports name := by
  obtain ⟨table, map, hmap, rfl⟩ := startUp_ok h
  rw [interfaceOf, ← lookup_loadIfconfig hmap name]
  exact find?_ifacesOf map ports name

theorem startUp_routesResolve_iff
    (h : startUp stack (some rtFile) (some ifFile) ports now = .ok w) :
    w.router.tables.RoutesResolve ↔ ∀ entry ∈ w.router.tables.routingTable.entries,
      (∃ port ∈ ports, port.name = entry.ifName) ∧
        (configured (lines ifFile) entry.ifName).isSome := by
  refine forall₂_congr fun entry hentry => ?_
  rw [startUp_findIfaceByName h, interfaceOf]
  cases hport : ports.find? fun port => port.name = entry.ifName with
  | none =>
      have hnone : ∀ port ∈ ports, port.name ≠ entry.ifName := by simpa using hport
      exact iff_of_false (by simp) fun hboth =>
        hboth.1.elim fun port hp => hnone port hp.1 hp.2
  | some port =>
      have hname : port.name = entry.ifName := by simpa using List.find?_some hport
      rw [Option.bind_some, Option.isSome_map]
      exact (and_iff_right ⟨port, List.mem_of_find?_eq_some hport, hname⟩).symm

end

/-- The router starts with an interface for each port that the configuration names, and so
every route has its interface exactly if it names such a port. -/
theorem startUp_interfaces {stack : FieldBuffers} {rtFile ifFile : Buffer} {ports : List Port}
    {now : Nat} {w : World} (h : startUp stack (some rtFile) (some ifFile) ports now = .ok w) :
    (∀ name, w.router.tables.findIfaceByName name = interfaceOf ifFile ports name) ∧
      (w.router.tables.RoutesResolve ↔
        ∀ entry ∈ w.router.tables.routingTable.entries,
          (∃ port ∈ ports, port.name = entry.ifName) ∧
            (configured (lines ifFile) entry.ifName).isSome) :=
  ⟨startUp_findIfaceByName h, startUp_routesResolve_iff h⟩

def projectIpConfig : Buffer :=
  bytesOf ("sw0-eth1 192.168.2.1\nsw0-eth2 172.64.3.1\nsw0-eth3 10.0.1.1\n" ++
    "server1 192.168.2.2\nserver2 172.64.3.10\nclient    10.0.1.100\n")

theorem startUp_projectRouter :
    startUp zeroFields (some projectRtable) (some projectIpConfig) projectPorts 0 =
      .ok projectRouter := by
  decide +kernel

theorem startUp_interfaces_projectRouter :
    (∀ name, projectRouter.router.tables.findIfaceByName name =
        interfaceOf projectIpConfig projectPorts name) ∧
      (projectRouter.router.tables.RoutesResolve ↔
        ∀ entry ∈ projectRouter.router.tables.routingTable.entries,
          (∃ port ∈ projectPorts, port.name = entry.ifName) ∧
            (configured (lines projectIpConfig) entry.ifName).isSome) :=
  startUp_interfaces startUp_projectRouter

/-! ## The ticker -/

theorem System.step_tables {s s' : System} {a : Action} (h : s.step a = some s') :
    (s'.world.router.tables = s.world.router.tables ∧
        s'.world.router.ifNameToIpMap = s.world.router.ifNameToIpMap) ∨
      ∃ ports, a = .reset ports ∧ s'.world = s.world.reset ports := by
  have hevolves := System.step_evolves h
  clear h
  generalize s'.world = w' at hevolves ⊢
  cases hevolves with
  | receive packet inIface => exact Or.inl ⟨rfl, rfl⟩
  | none => exact Or.inl ⟨rfl, rfl⟩
  | call op =>
      obtain ⟨htables, hmap, -⟩ := World.perform_keeps s.world op
      exact Or.inl ⟨htables, hmap⟩
  | tick hfault => exact Or.inl ⟨rfl, rfl⟩
  | reset ports => exact Or.inr ⟨ports, rfl, rfl⟩
  | elapse time => exact Or.inl ⟨rfl, rfl⟩

def RoutingTable.Covers (table : RoutingTable) : Prop :=
  ∀ ip, (table.lookup ip).isSome

theorem covers_of_default {table : RoutingTable} {entry : RoutingTableEntry}
    (hmem : entry ∈ table.entries) (hmask : entry.mask = 0) : table.Covers := by
  intro ip
  rw [Option.isSome_iff_ne_none]
  intro hnone
  rw [RoutingTable.lookup, longestMatch_eq, lastMax_eq_none_iff, List.filter_eq_nil_iff] at hnone
  have hmatch : entry.Matches ip := by
    unfold RoutingTableEntry.Matches
    rw [hmask, UInt32.and_zero, UInt32.and_zero]
  exact hnone entry hmem (by simpa using hmatch)

theorem sendInterface_ok {t : RouterTables} (hcovers : t.routingTable.Covers)
    (hroutes : t.RoutesResolve) (ip : UInt32) : ∃ iface, t.sendInterface ip = .ok iface := by
  obtain ⟨entry, hroute⟩ := Option.isSome_iff_exists.mp (hcovers ip)
  obtain ⟨iface, hiface⟩ :=
    Option.isSome_iff_exists.mp (hroutes entry (RoutingTable.lookup_mem hroute))
  refine ⟨iface, ?_⟩
  unfold RouterTables.sendInterface
  rw [hroute]
  dsimp only
  rw [hiface]

theorem checkRequests_ok {t : RouterTables} (h : ∀ ip, ∃ iface, t.sendInterface ip = .ok iface)
    (now : Nat) (requests : List ArpRequest) : (checkRequests t now requests).2.2 = none := by
  induction requests with
  | nil => rfl
  | cons req rest ih =>
      obtain ⟨iface, hiface⟩ := h req.ip
      rw [checkRequests, handleArpRequest, hiface]
      by_cases hdue : seconds 1 < now - req.timeSent
      · rw [if_pos hdue]
        by_cases hmax : maxSentTime ≤ req.nTimesSent
        · rw [if_pos hmax]
        · rw [if_neg hmax]
          exact ih
      · rw [if_neg hdue]
        exact ih

/-- The ports of a reset still have those the routes name. -/
def KeepsPorts (table : RoutingTable) : Action → Prop
  | .reset ports => ∀ entry ∈ table.entries, ∃ port ∈ ports, port.name = entry.ifName
  | _ => True

instance (table : RoutingTable) (a : Action) : Decidable (KeepsPorts table a) := by
  unfold KeepsPorts
  split <;> infer_instance

structure Serving (table : RoutingTable) (map : List (String × UInt32)) (s : System) : Prop where
  table : s.world.router.tables.routingTable = table
  map : s.world.router.ifNameToIpMap = map
  resolve : s.world.router.tables.RoutesResolve

theorem Serving.step {table : RoutingTable} {map : List (String × UInt32)}
    (hmap : ∀ entry ∈ table.entries, (map.lookup entry.ifName).isSome) {s s' : System} {a : Action}
    (hs : Serving table map s) (ha : KeepsPorts table a) (h : s.step a = some s') :
    Serving table map s' := by
  rcases System.step_tables h with ⟨htables, hmap'⟩ | ⟨ports, rfl, hworld⟩
  · exact ⟨by rw [htables, hs.table], by rw [hmap', hs.map], by rw [htables]; exact hs.resolve⟩
  · rw [KeepsPorts] at ha
    refine ⟨?_, ?_, ?_⟩
    · rw [hworld]
      exact hs.table
    · rw [hworld]
      exact hs.map
    · rw [hworld]
      intro entry hentry
      have hmem : entry ∈ table.entries := hs.table ▸ hentry
      have hfind : (s.world.reset ports).router.tables.findIfaceByName entry.ifName = _ :=
        find?_ifacesOf s.world.router.ifNameToIpMap ports entry.ifName
      obtain ⟨port, hport, hname⟩ := ha entry hmem
      rw [hfind, hs.map]
      cases hfirst : ports.find? fun port => port.name = entry.ifName with
      | none => exact absurd hname (by simpa using List.find?_eq_none.mp hfirst port hport)
      | some first =>
          rw [Option.bind_some, Option.isSome_map]
          exact hmap entry hmem

/-- A router whose files give every route an interface and every address a route never
dies of a ticker pass, whatever frames come in, wherever the passes fall, and however
often the controller resets it with the ports that the routes name. -/
theorem startUp_survives_ticks {stack : FieldBuffers} {rtFile ifFile : Buffer} {ports : List Port}
    {now : Nat} {w : World} (h : startUp stack (some rtFile) (some ifFile) ports now = .ok w)
    (hcovers : w.router.tables.routingTable.Covers)
    (hports : KeepsPorts w.router.tables.routingTable (.reset ports))
    (hconfig : ∀ entry ∈ w.router.tables.routingTable.entries,
      (configured (lines ifFile) entry.ifName).isSome)
    {s : System} (hreach : Reach System.step (KeepsPorts w.router.tables.routingTable) ⟨w, .idle⟩ s) :
    ∃ s', s.step .tick = some s' := by
  have hresolve := (startUp_routesResolve_iff h).mpr fun entry hentry =>
    ⟨hports entry hentry, hconfig entry hentry⟩
  obtain ⟨table, map, hmap, rfl⟩ := startUp_ok h
  have hserving : Serving table map s :=
    hreach.invariant
      (fun _ _ _ hs ha hstep => hs.step (fun entry hentry => by
        rw [lookup_loadIfconfig hmap]
        exact hconfig entry hentry) ha hstep)
      ⟨rfl, rfl, hresolve⟩
  have hok := sendInterface_ok (t := s.world.router.tables) (by rw [hserving.table]; exact hcovers)
    hserving.resolve
  have hfault : s.world.tick.2 = none := by
    simp only [World.tick, ArpCache.ticker_outcome]
    exact checkRequests_ok hok s.world.now s.world.router.arp.arpRequests
  rcases htick : s.world.tick with ⟨next, fault | fault⟩
  · exact ⟨_, by rw [System.step, htick]⟩
  · rw [htick] at hfault
    cases hfault

/-- The project's router, with a datagram waiting and two seconds gone. -/
theorem projectRouter_survives_tick :
    ∃ s, run System.step ⟨projectRouter, .idle⟩ [.receive (clientDatagram 64) "sw0-eth3", .call,
        .call, .call, .call, .reset projectPorts, .receive (clientDatagram 64) "sw0-eth3", .call,
        .call, .call, .call, .elapse (seconds 2)] = some s ∧ ∃ s', s.step .tick = some s' := by
  obtain ⟨s, hrun⟩ := Option.isSome_iff_exists.mp (show (run System.step ⟨projectRouter, .idle⟩
    [.receive (clientDatagram 64) "sw0-eth3", .call, .call, .call, .call, .reset projectPorts,
      .receive (clientDatagram 64) "sw0-eth3", .call, .call, .call, .call,
      .elapse (seconds 2)]).isSome by decide +kernel)
  have hdefault : projectTable.entries.head (by decide) ∈ projectTable.entries :=
    List.head_mem _
  refine ⟨s, hrun, startUp_survives_ticks startUp_projectRouter ?_ ?_ ?_ (reach_of_run ?_ hrun)⟩
  · exact covers_of_default hdefault (by decide)
  · decide +kernel
  · decide +kernel
  · decide +kernel

end Cs118.Router
