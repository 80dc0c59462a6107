import Cs118.Router.Proofs.Handling
/-!
# Frames that are too short

No handler looks at the length of a frame.  How far each of them reads depends on the type
fields, the protocol, the TTL and the destination, but not on the ARP cache.
-/

namespace Cs118.Router

open Cs118.Lib
open Cs118.Lib.Bytes

def Overruns (p : Handler Unit) (w : World) : Prop := p.Throws World.perform .outOfBounds w

/-- The frame has all that it makes the router read. -/
structure LongEnough (t : RouterTables) (packet : Buffer) (inIface : String) : Prop where
  ethernet : (t.findIfaceByName inIface).isSome → 14 ≤ packet.length
  arp : (t.findIfaceByName inIface).isSome →
    (EthernetHdr.load packet).etherType = ntohs ethertypeArp → 42 ≤ packet.length
  ip : (t.findIfaceByName inIface).isSome →
    (EthernetHdr.load packet).etherType = ntohs ethertypeIp → 34 ≤ packet.length
  icmp : ∀ timeExceed, ForIcmp t packet inIface timeExceed → 38 ≤ packet.length
  quoted : ForIcmp t packet inIface 1 → icmpType packet ≠ 8 → 42 ≤ packet.length

/-- All that is read of the frame is inside it, and a frame that is too short is ignored. -/
structure ReadsInside (w : World) (packet : Buffer) (inIface : String) : Prop where
  headers : ¬ Overruns (handlePacket w.router.tables packet inIface) w
  source : ∀ ip, .learned ip ∈ w.eventsTo (w.receive packet inIface).1 → 6 + 6 ≤ packet.length
  ignored : ¬ LongEnough w.router.tables packet inIface → w.receive packet inIface = (w, .ok ())

section

variable {w : World} {t : RouterTables} {packet : Buffer} {inIface : String}

/-! ## The calls -/

theorem not_overruns_sendPacket {frame : Buffer} {outIface : String} {purpose : Purpose} :
    ¬ Overruns (Handler.sendPacket frame outIface purpose) w :=
  Script.not_throws_perform

theorem overruns_lookup (ip : UInt32) {k : Option ArpEntry → Handler Unit} :
    Overruns (.call (.lookup ip) k) w ↔ Overruns (k (w.router.arp.lookup ip)) w :=
  Script.throws_call_ok rfl

theorem overruns_learn {ip : UInt32} {f : Unit → Handler Unit} {far : Prop}
    (hf : ∀ w, Overruns (f ()) w ↔ far) : Overruns (learn packet ip >>= f) w ↔ far := by
  refine (overruns_lookup ip).trans ?_
  cases w.router.arp.lookup ip with
  | none => exact hf _
  | some _ => exact hf w

theorem overruns_copyOut {α : Type} {load : Buffer → α} {offset size : Nat} {f : α → Handler Unit}
    {far : Prop} (hf : offset + size ≤ packet.length →
      (Overruns (f (load (packet.drop offset))) w ↔ far)) :
    Overruns (Handler.copyOut load packet offset size >>= f) w ↔
      packet.length < offset + size ∨ far := by
  by_cases hfits : offset + size ≤ packet.length
  · rw [exec_copyOut hfits, hf hfits, or_iff_right (by omega)]
  · rw [exec_copyOut_overrun (by omega)]
    exact iff_of_true rfl (Or.inl (by omega))

theorem not_overruns_deref {α : Type} {a : Option α} {f : α → Handler Unit}
    (hf : ∀ a, ¬ Overruns (f a) w) : ¬ Overruns (Handler.deref a >>= f) w := by
  cases a with
  | none => exact fun h => absurd h (by simp [Overruns, Handler.deref])
  | some a => exact hf a

/-! ## The handlers -/

theorem overruns_handleIcmpPacket {timeExceed : Nat} :
    Overruns (handleIcmpPacket t inIface packet timeExceed) w ↔
      packet.length < 38 ∨ icmpType packet ≠ 8 ∧ timeExceed = 1 ∧ packet.length < 42 := by
  refine overruns_copyOut fun _ => ?_
  by_cases hecho : (IcmpHdr.load (packet.drop 34)).icmpType = 8
  · have htype : icmpType packet = 8 := hecho
    rw [if_pos hecho]
    dsimp only
    refine iff_of_false ?_ (by simp [htype])
    split_ifs
    · exact not_overruns_deref fun _ => not_overruns_sendPacket
    · exact id
  · have htype : icmpType packet ≠ 8 := hecho
    rw [if_neg hecho, and_iff_right htype]
    split_ifs with hexceed
    · rw [and_iff_right hexceed, ← or_false (packet.length < 42)]
      exact overruns_copyOut fun _ =>
        iff_of_false (not_overruns_deref fun _ => not_overruns_sendPacket) id
    · exact iff_of_false id fun h => hexceed h.1

theorem not_overruns_forwardPacket {eHdr : EthernetHdr} {ipPacket : IpHdr} :
    ¬ Overruns (forwardPacket t packet eHdr ipPacket) w := by
  unfold forwardPacket
  cases t.routingTable.lookup ipPacket.ipDst with
  | none => exact id
  | some route =>
      exact not_overruns_deref fun _ => not_overruns_deref fun _ => not_overruns_sendPacket

theorem overruns_handleArpPacket {eHdr : EthernetHdr} :
    Overruns (handleArpPacket t packet eHdr) w ↔ packet.length < 42 := by
  rw [← or_false (packet.length < 42)]
  refine overruns_copyOut fun _ => ?_
  split_ifs
  · refine overruns_learn fun w => iff_of_false ?_ id
    cases t.findIfaceByIp (ArpHdr.load (packet.drop 14)).arpTip with
    | none => exact id
    | some _ => exact not_overruns_sendPacket
  · refine (overruns_lookup _).trans ?_
    cases w.router.arp.lookup (ArpHdr.load (packet.drop 14)).arpSip with
    | none => exact iff_of_false Script.not_throws_perform id
    | some _ => exact Iff.rfl
  · exact Iff.rfl

def ShortForIcmp (t : RouterTables) (packet : Buffer) (inIface : String) : Prop :=
  ∃ timeExceed, ForIcmp t packet inIface timeExceed ∧
    (packet.length < 38 ∨ icmpType packet ≠ 8 ∧ timeExceed = 1 ∧ packet.length < 42)

theorem ForIcmp.short_iff {timeExceed : Nat} (h : ForIcmp t packet inIface timeExceed) :
    ShortForIcmp t packet inIface ↔
      packet.length < 38 ∨ icmpType packet ≠ 8 ∧ timeExceed = 1 ∧ packet.length < 42 := by
  constructor
  · rintro ⟨_, hicmp, hshort⟩
    rwa [h.unique hicmp]
  · exact fun hshort => ⟨timeExceed, h, hshort⟩

theorem overruns_handleIpPacket {eHdr : EthernetHdr} (hknown : (t.findIfaceByName inIface).isSome)
    (htype : (EthernetHdr.load packet).etherType = ntohs ethertypeIp) :
    Overruns (handleIpPacket t inIface packet eHdr) w ↔
      packet.length < 34 ∨ ShortForIcmp t packet inIface := by
  refine overruns_copyOut fun hfits => ?_
  dsimp only
  by_cases hsum : cksum (IpHdr.load (packet.drop 14)).image 20 = 0xffff
  · have haccepted : Accepted t packet inIface := ⟨hknown, htype, hfits, hsum⟩
    rw [if_pos hsum]
    refine overruns_learn fun w => ?_
    cases hlocal : t.findIfaceByIp (IpHdr.load (packet.drop 14)).ipDst with
    | some iface =>
        have hours : (t.findIfaceByIp (ipHeader packet).ipDst).isSome := by
          rw [ipHeader, hlocal]
          rfl
        dsimp only
        split_ifs with hping hudp
        · have hicmp : ForIcmp t packet inIface 0 := ⟨haccepted, Or.inl ⟨hours, Or.inl ⟨hping, rfl⟩⟩⟩
          exact overruns_handleIcmpPacket.trans hicmp.short_iff.symm
        · have hicmp : ForIcmp t packet inIface 1 := ⟨haccepted, Or.inl ⟨hours, Or.inr ⟨hudp, rfl⟩⟩⟩
          exact overruns_handleIcmpPacket.trans hicmp.short_iff.symm
        · refine iff_of_false id ?_
          rintro ⟨_, hicmp, -⟩
          rcases hicmp.protocol hours with ⟨hp, -⟩ | ⟨hp, -⟩
          · exact hping hp
          · exact hudp hp
    | none =>
        dsimp only
        by_cases hexpired : (IpHdr.load (packet.drop 14)).ipTtl = 1
        · have hicmp : ForIcmp t packet inIface 1 := ⟨haccepted, Or.inr ⟨hlocal, hexpired, rfl⟩⟩
          rw [if_pos ((ttl_le_zero_iff _).mpr hexpired)]
          exact overruns_learn fun w => overruns_handleIcmpPacket.trans hicmp.short_iff.symm
        · rw [if_neg fun h => hexpired ((ttl_le_zero_iff _).mp h)]
          refine iff_of_false ?_ ?_
          · refine (overruns_lookup _).not.mpr ?_
            cases w.router.arp.lookup (IpHdr.load (packet.drop 14)).ipDst with
            | some _ => exact not_overruns_forwardPacket
            | none => exact not_overruns_deref fun _ => id
          · rintro ⟨_, hicmp, -⟩
            exact hicmp.not_inTransit ⟨haccepted, hlocal, hexpired⟩
  · rw [if_neg hsum]
    refine iff_of_false id ?_
    rintro ⟨_, hicmp, -⟩
    exact hsum hicmp.accepted.verified

theorem longEnough_iff (hknown : (t.findIfaceByName inIface).isSome) :
    LongEnough t packet inIface ↔ 14 ≤ packet.length ∧
      ((EthernetHdr.load packet).etherType = ntohs ethertypeArp → 42 ≤ packet.length) ∧
      ((EthernetHdr.load packet).etherType = ntohs ethertypeIp → 34 ≤ packet.length) ∧
      ¬ ShortForIcmp t packet inIface := by
  constructor
  · refine fun h => ⟨h.ethernet hknown, h.arp hknown, h.ip hknown, ?_⟩
    rintro ⟨timeExceed, hicmp, hshort | ⟨hecho, rfl, hshort⟩⟩
    · exact absurd (h.icmp _ hicmp) (by omega)
    · exact absurd (h.quoted hicmp hecho) (by omega)
  · rintro ⟨hethernet, harp, hip, hicmp⟩
    refine ⟨fun _ => hethernet, fun _ => harp, fun _ => hip, fun timeExceed h => ?_,
      fun h hecho => ?_⟩
    · by_contra hshort
      exact hicmp ⟨timeExceed, h, Or.inl (by omega)⟩
    · by_contra hshort
      exact hicmp ⟨1, h, Or.inr ⟨hecho, rfl, by omega⟩⟩

theorem overruns_handlePacket :
    Overruns (handlePacket t packet inIface) w ↔ ¬ LongEnough t packet inIface := by
  by_cases hknown : (t.findIfaceByName inIface).isSome
  · obtain ⟨iface, hiface⟩ := Option.isSome_iff_exists.mp hknown
    have hicmp : ShortForIcmp t packet inIface →
        (EthernetHdr.load packet).etherType = ntohs ethertypeIp := fun hshort =>
      hshort.choose_spec.1.accepted.etherType
    have hdistinct : ntohs ethertypeArp ≠ ntohs ethertypeIp := by decide
    rw [longEnough_iff hknown]
    unfold handlePacket getEthernetHeader
    rw [hiface]
    refine (overruns_copyOut fun _ => Iff.rfl).trans ?_
    rw [List.drop_zero]
    by_cases harp : (EthernetHdr.load packet).etherType = ntohs ethertypeArp
    · rw [if_pos harp, overruns_handleArpPacket]
      grind
    · rw [if_neg harp]
      by_cases hip : (EthernetHdr.load packet).etherType = ntohs ethertypeIp
      · rw [if_pos hip, overruns_handleIpPacket hknown hip]
        grind
      · have hpure : ¬ Overruns (pure () : Handler Unit) w := id
        rw [if_neg hip]
        grind
  · have hnone := Option.not_isSome_iff_eq_none.mp hknown
    unfold handlePacket
    rw [hnone]
    exact iff_of_false id fun hnot => hnot ⟨fun h => absurd h hknown, fun h => absurd h hknown,
      fun h => absurd h hknown, fun _ h => absurd h.accepted.known hknown,
      fun h => absurd h.accepted.known hknown⟩

/-! ## Main result -/

theorem Outcome.learned_fits {arp : ArpCache} {events : List Event} {fault : Option Fault}
    (h : Outcome w packet inIface arp events fault) (hevents : events ≠ []) :
    34 ≤ packet.length := by
  have harpFits : ∀ {op}, IsArp w.router.tables packet inIface op → 34 ≤ packet.length := fun h =>
    Nat.le_trans (by decide) h.fits
  cases h with
  | ignored _ _ _ => exact absurd rfl hevents
  | overrun _ _ _ _ => exact absurd rfl hevents
  | request harp _ => exact harpFits harp
  | requestForUs harp _ _ => exact harpFits harp
  | replyKnown harp _ _ => exact harpFits harp
  | reply harp _ _ _ _ _ => exact harpFits harp
  | icmpOverrun _ hicmp _ => exact hicmp.accepted.fits
  | echo _ hicmp _ _ _ _ => exact hicmp.accepted.fits
  | icmpError hicmp _ _ _ _ => exact hicmp.accepted.fits
  | icmpIgnored hicmp _ => exact hicmp.accepted.fits
  | localOther haccepted _ _ _ _ => exact haccepted.fits
  | noRoute htransit _ _ _ => exact htransit.accepted.fits
  | noHop htransit _ _ _ _ _ => exact htransit.accepted.fits
  | forwarded htransit _ _ _ _ _ _ _ _ => exact htransit.accepted.fits
  | queueNull htransit _ _ => exact htransit.accepted.fits
  | queued htransit _ _ _ => exact htransit.accepted.fits

end

/-- In any state, all that is read of a frame is inside it if and only if the frame has
all that it makes the router read. -/
theorem reads_inside_iff (w : World) (packet : Buffer) (inIface : String) :
    ReadsInside w packet inIface ↔ LongEnough w.router.tables packet inIface := by
  constructor
  · intro h
    by_contra hshort
    exact h.headers (overruns_handlePacket.mpr hshort)
  · intro hlong
    refine ⟨fun hoverruns => overruns_handlePacket.mp hoverruns hlong, fun ip hlearned => ?_,
      fun hshort => absurd hlong hshort⟩
    obtain ⟨arp, events, fault, hreceive, houtcome⟩ := receive_yields w packet inIface
    rw [hreceive, World.eventsTo_setArp] at hlearned
    exact Nat.le_trans (by decide) (houtcome.learned_fits (List.ne_nil_of_mem hlearned))

/-- A frame of no bytes, on an interface of the router. -/
theorem empty_frame_overrun :
    World.Reachable projectTable projectIps projectRouter ∧
      Overruns (handlePacket projectRouter.router.tables [] "sw0-eth3") projectRouter ∧
      ¬ ReadsInside projectRouter [] "sw0-eth3" := by
  have hoverruns : Overruns (handlePacket projectRouter.router.tables [] "sw0-eth3") projectRouter :=
    overruns_handlePacket.mpr fun hlong => absurd (hlong.ethernet (by decide +kernel)) (by decide)
  exact ⟨projectRouter_reachable, hoverruns, fun h => h.headers hoverruns⟩

end Cs118.Router
