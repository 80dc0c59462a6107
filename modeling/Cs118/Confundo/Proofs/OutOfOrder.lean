import Cs118.Confundo.Proofs.Streams
/-!
# Datagrams out of order

The data branch leaves a connection alone when a datagram is out of order.  The `FIN` branch
makes the same test, but only for the number: the connection is closed in any case.  A stream
that has failed before takes no later data either.
-/

namespace Cs118.Confundo

open Cs118.Lib.Bytes
open Cs118.Lib.Run

/-- A datagram with a whole header for the open connection in slot `i`, with another number
than the one that is expected. -/
structure OutOfOrder (s : Server) (i : Fin 10) (a : Arrival) : Prop where
  inUse : s.InUse i
  notClosed : (s.slot i).isFin ≠ 1
  kind : a.isData ∨ a.isFin
  whole : 12 ≤ a.bytes.length
  id : a.header.id = (s.slot i).packHeader.id
  seq : a.header.seq ≠ (s.slot i).packHeader.ack

instance (s : Server) (i : Fin 10) : DecidablePred (OutOfOrder s i) := fun a =>
  decidable_of_iff (s.InUse i ∧ (s.slot i).isFin ≠ 1 ∧ (a.isData ∨ a.isFin) ∧
      12 ≤ a.bytes.length ∧ a.header.id = (s.slot i).packHeader.id ∧
      a.header.seq ≠ (s.slot i).packHeader.ack)
    ⟨fun h => ⟨h.1, h.2.1, h.2.2.1, h.2.2.2.1, h.2.2.2.2.1, h.2.2.2.2.2⟩,
      fun h => ⟨h.inUse, h.notClosed, h.kind, h.whole, h.id, h.seq⟩⟩

structure SameProgress (c c' : Connection) : Prop where
  myfile : c'.myfile = c.myfile
  ack : c'.packHeader.ack = c.packHeader.ack
  isFin : c'.isFin = c.isFin

/-- Whatever comes later, as long as it is no `FIN` for connection `i + 1` and no in-order
data for it that is shorter than a header, that connection's in-order data is appended. -/
def StillAppends (i : Fin 10) (s : Server) : Prop :=
  ∀ later : List Arrival,
    (∀ a ∈ later, a.isFin → a.header.id ≠ UInt16.ofNat (i.val + 1)) →
    AlongRun Server.step (fun s a _ => WholeHeader i s a) s later →
    AlongRun Server.step
      (fun s a t => a.isData → a.header.id = UInt16.ofNat (i.val + 1) →
        a.header.seq = (s.slot i).packHeader.ack →
        (t.slot i).myfile.contents = (s.slot i).myfile.contents ++ a.payload) s later

/-- An out-of-order datagram is discarded, and later data is not lost by it. -/
structure Discards (s : Server) (a : Arrival) (t : Server) : Prop where
  same : ∀ i, OutOfOrder s i a → SameProgress (s.slot i) (t.slot i)
  appends : ∀ i, OutOfOrder s i a → StillAppends i t

def FinInOrder (s : Server) (a : Arrival) (_t : Server) : Prop :=
  ∀ i, OutOfOrder s i a → ¬ a.isFin

instance (s : Server) (a : Arrival) (t : Server) : Decidable (FinInOrder s a t) :=
  inferInstanceAs (Decidable (∀ i, OutOfOrder s i a → ¬ a.isFin))

/-- What comes out of order comes for a connection whose stream has not failed. -/
def StreamGood (s : Server) (a : Arrival) (_t : Server) : Prop :=
  ∀ i, OutOfOrder s i a → (s.slot i).myfile.fail = false

instance (s : Server) (a : Arrival) (t : Server) : Decidable (StreamGood s a t) :=
  inferInstanceAs (Decidable (∀ i, OutOfOrder s i a → (s.slot i).myfile.fail = false))

/-! ## Open connections -/

theorem Open.stillAppends {s : Server} {i : Fin 10} (h : Open i s)
    (hgood : (s.slot i).myfile.fail = false) : StillAppends i s := by
  intro later hlater hwhole
  refine AlongRun.imp (I := fun s => Open i s ∧ (s.slot i).myfile.fail = false) ?_ ⟨h, hgood⟩
    (hwhole.and_actions hlater)
  rintro s a t ⟨hopen, hgood⟩ hstep ⟨hheader, hfin⟩
  obtain rfl := Option.some.inj hstep
  obtain ⟨k, htable⟩ := hopen.tableOk
  refine ⟨fun hdata hid hseq => ?_, hopen.handle hfin, ?_⟩
  · exact (htable.effect a).appended htable hopen.inUse ⟨hdata, hid, hseq, hopen.notClosed⟩ hgood
  · exact ((htable.effect a).good_iff htable hopen.inUse hfin hopen.notClosed).mpr ⟨hgood, hheader⟩

def probe (s : Server) (i : Fin 10) : Arrival :=
  ⟨0, datagram ⟨(s.slot i).packHeader.ack, 0, UInt16.ofNat (i.val + 1), ackFlag⟩ [0]⟩

theorem packet_probe (s : Server) (i : Fin 10) : (probe s i).packet =
    ⟨⟨(s.slot i).packHeader.ack, 0, UInt16.ofNat (i.val + 1), ackFlag⟩,
      [0] ++ List.replicate (dataSize - 1) 0⟩ :=
  receivePacket_datagram _ (by decide)

theorem payload_probe (s : Server) (i : Fin 10) : (probe s i).payload = [0] := by
  have hcount : receivedBytes (probe s i).bytes - 12 = 1 := by
    rw [probe, receivedBytes_datagram _ (by decide)]
    rfl
  rw [Arrival.payload, hcount, packet_probe]
  rfl

theorem Open.good_of_stillAppends {s : Server} {i : Fin 10} (h : Open i s)
    (hstill : StillAppends i s) : (s.slot i).myfile.fail = false := by
  have hheader : (probe s i).header =
      ⟨(s.slot i).packHeader.ack, 0, UInt16.ofNat (i.val + 1), ackFlag⟩ :=
    congrArg Packet.packHeader (packet_probe s i)
  have hdata : (probe s i).isData := Or.inl (by rw [hheader])
  have hid : (probe s i).header.id = UInt16.ofNat (i.val + 1) := by rw [hheader]
  have hseq : (probe s i).header.seq = (s.slot i).packHeader.ack := by rw [hheader]
  have hnotFin : ¬ (probe s i).isFin := by
    rw [Arrival.isFin, hheader]
    exact (by decide : ackFlag ≠ finFlag)
  have hwhole : 12 ≤ (probe s i).bytes.length := by
    rw [probe, length_datagram]
    omega
  have hnext := (hstill [probe s i]
    (fun a ha hfin => absurd (List.mem_singleton.mp ha ▸ hfin) hnotFin)
    (fun _ _ => ⟨fun _ => hwhole, trivial⟩) _ rfl).1 hdata hid hseq
  rw [← Bool.not_eq_true]
  intro hfail
  obtain ⟨k, htable⟩ := h.tableOk
  have hmyfile := ((htable.effect (probe s i)).moves_on htable h.inUse
    ⟨hdata, hid, hseq, h.notClosed⟩).2
  rw [hmyfile, OutFile.write_of_fail hfail, payload_probe] at hnext
  simp at hnext

/-! ## One datagram -/

section

variable {s : Server} {k : Nat} {i : Fin 10} {a : Arrival}

theorem slot_of_outOfOrder (h : TableOk s k) (ha : OutOfOrder s i a) :
    (s.handle a).1.slot i = (a.update (s.slot i)).1 := by
  have hi := h.inUse_iff.mp ha.inUse
  rw [h.handle_update ha.kind hi.le ha.id, Server.slot_setSlot_self]

theorem sameProgress_of_isData (h : TableOk s k) (ha : OutOfOrder s i a) (hdata : a.isData) :
    SameProgress (s.slot i) ((s.handle a).1.slot i) := by
  have hseq : a.packet.packHeader.seq ≠ (s.slot i).packHeader.ack := ha.seq
  rw [slot_of_outOfOrder h ha, Arrival.update_of_isData hdata]
  rcases dataBranch_cases a.packet (receivedBytes a.bytes) (s.slot i) with
    ⟨hfin, -⟩ | ⟨-, seq, heq⟩
  · exact absurd hfin ha.notClosed
  · rw [heq]
    exact ⟨if_neg hseq, if_neg hseq, rfl⟩

theorem isFin_of_isFin (h : TableOk s k) (ha : OutOfOrder s i a) (hfin : a.isFin) :
    ((s.handle a).1.slot i).isFin = 1 := by
  have hdata : ¬ a.isData := by
    rintro (hack | hzero)
    · exact absurd (hfin.symm.trans hack) (by decide)
    · exact absurd (hfin.symm.trans hzero) (by decide)
  rw [slot_of_outOfOrder h ha, Arrival.update_of_not_isData hdata]
  rfl

theorem discards_iff (h : TableOk s k) :
    Discards s a (s.handle a).1 ↔
      FinInOrder s a (s.handle a).1 ∧ StreamGood s a (s.handle a).1 := by
  have hopen : ∀ i, OutOfOrder s i a → SameProgress (s.slot i) ((s.handle a).1.slot i) →
      Open i (s.handle a).1 := by
    intro i ha hsame
    refine ⟨⟨_, h.handle a⟩, h.inUse_handle ha.inUse a, ?_⟩
    rw [hsame.isFin]
    exact ha.notClosed
  constructor
  · intro hdiscards
    refine ⟨fun i ha hfin => ?_, fun i ha => ?_⟩
    · have hsame := (hdiscards.same i ha).isFin
      rw [isFin_of_isFin h ha hfin] at hsame
      exact ha.notClosed hsame.symm
    · have hsame := hdiscards.same i ha
      rw [← hsame.myfile]
      exact (hopen i ha hsame).good_of_stillAppends (hdiscards.appends i ha)
  · rintro ⟨hinOrder, hgood⟩
    have hsame : ∀ i, OutOfOrder s i a → SameProgress (s.slot i) ((s.handle a).1.slot i) :=
      fun i ha => sameProgress_of_isData h ha (ha.kind.resolve_right (hinOrder i ha))
    refine ⟨hsame, fun i ha => (hopen i ha (hsame i ha)).stillAppends ?_⟩
    rw [(hsame i ha).myfile]
    exact hgood i ha

end

/-! ## Every run -/

/-- From every reachable state and in every run, out-of-order datagrams are discarded exactly
when no `FIN` is among them and the streams of their connections have not failed before. -/
theorem out_of_order_discarded_iff {s : Server} (hs : s.Reachable) (arrivals : List Arrival) :
    AlongRun Server.step Discards s arrivals ↔
      AlongRun Server.step (fun s a t => FinInOrder s a t ∧ StreamGood s a t) s arrivals := by
  refine alongRun_congr (I := fun s => ∃ k, TableOk s k) ?_ ?_ (fun _ _ => trivial) hs.tableOk
  · rintro s a t ⟨k, h⟩ - hstep -
    obtain rfl := Option.some.inj hstep
    exact ⟨_, h.handle a⟩
  · rintro s a t ⟨k, h⟩ - hstep
    obtain rfl := Option.some.inj hstep
    exact discards_iff h

def overtakingArrivals : List Arrival :=
  [synOf 1, ⟨1, datagram ⟨12858, 0, 1, 0⟩ [8]⟩, firstDataOf 1 1 [7], finOf 1 1 12347]

theorem out_of_order_discarded_overtaking :
    AlongRun Server.step Discards Server.start overtakingArrivals :=
  (out_of_order_discarded_iff (Reach.refl _) overtakingArrivals).mpr (by decide +kernel)

/-- A `FIN` that overtakes the only segment closes the connection, and the segment is lost. -/
theorem early_fin_closes_connection :
    let opened := (Server.start.handle (synOf 1)).1
    let closed := (opened.handle (finOf 1 1 12347)).1
    OutOfOrder opened 0 (finOf 1 1 12347) ∧
      (opened.slot 0).isFin = 0 ∧ (closed.slot 0).isFin = 1 ∧
      Appends (firstDataOf 1 1 [7]) 0 (opened.slot 0) ∧
      ((closed.handle (firstDataOf 1 1 [7])).1.slot 0).myfile.contents = [] ∧
      ¬ Discards opened (finOf 1 1 12347) closed := by
  refine ⟨by decide +kernel, by decide +kernel, by decide +kernel, ?_, by decide +kernel,
    fun h => ?_⟩
  · exact ⟨by decide +kernel, by decide +kernel, by decide +kernel, by decide +kernel⟩
  · have hsame := (h.same 0 (by decide +kernel)).isFin
    exact absurd hsame (by decide +kernel)

end Cs118.Confundo
