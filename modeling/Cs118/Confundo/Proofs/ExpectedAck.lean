import Cs118.Confundo.Proofs.Streams
/-!
# The expected number and the length of the file

A slot's number and its file move on together, one by `recv_byte-12` in unsigned arithmetic
and the other by as many bytes as there are behind a header.  The two differ for a datagram
that is shorter than its header, which may still be in order: the missing bytes are zeros.
-/

namespace Cs118.Confundo

open Cs118.Lib.Bytes
open Cs118.Lib.Run

/-- The number that slot `i` expects is that of the byte after its file, when the `SYN` had
the number `seq`. -/
def ExpectsNext (seq : UInt32) (i : Fin 10) (s : Server) : Prop :=
  (s.slot i).packHeader.ack.toNat =
    (seq.toNat + 1 + (s.slot i).myfile.contents.length) % seqModulus

instance (seq : UInt32) (i : Fin 10) : DecidablePred (ExpectsNext seq i) := fun s =>
  inferInstanceAs (Decidable ((s.slot i).packHeader.ack.toNat =
    (seq.toNat + 1 + (s.slot i).myfile.contents.length) % seqModulus))

/-! ## One datagram -/

/-- The unsigned advance is by the length of the payload when there is a whole header, and
by something else when there is not. -/
theorem toNat_advance_iff {ack : UInt32} {n : Nat} (hack : ack.toNat < seqModulus)
    (hn : n ≤ packetSize) :
    ((ack + (UInt32.ofNat n - 12)) % UInt32.ofNat seqModulus).toNat =
      (ack.toNat + (n - 12)) % seqModulus ↔ 12 ≤ n := by
  have hmodulus : (UInt32.ofNat seqModulus).toNat = seqModulus := by decide
  have hdiff : (UInt32.ofNat n - 12).toNat = (2 ^ 32 - 12 + n) % 2 ^ 32 := by
    rw [UInt32.toNat_sub, UInt32.toNat_ofNat', Nat.add_mod_mod]
    rfl
  rw [UInt32.toNat_mod, UInt32.toNat_add, hmodulus, hdiff]
  unfold packetSize at hn
  unfold seqModulus at *
  by_cases hwhole : 12 ≤ n
  · have hadvance : (2 ^ 32 - 12 + n) % 2 ^ 32 = n - 12 := by omega
    rw [hadvance, Nat.mod_eq_of_lt (a := ack.toNat + (n - 12)) (by omega)]
    exact iff_of_true rfl hwhole
  · have hadvance : (2 ^ 32 - 12 + n) % 2 ^ 32 = 2 ^ 32 - (12 - n) := by omega
    have hmissing : 0 < 12 - n ∧ 12 - n ≤ 12 := by omega
    have hempty : n - 12 = 0 := by omega
    rw [hadvance, hempty, Nat.add_zero, Nat.mod_eq_of_lt hack]
    refine iff_of_false ?_ hwhole
    generalize 12 - n = missing at hmissing ⊢
    by_cases hborrow : ack.toNat < missing
    · -- 2 ^ 32 is 64554 modulo 102401
      rw [Nat.mod_eq_of_lt (a := ack.toNat + (2 ^ 32 - missing)) (by omega)]
      omega
    · have hback : (ack.toNat + (2 ^ 32 - missing)) % 2 ^ 32 = ack.toNat - missing := by omega
      rw [hback, Nat.mod_eq_of_lt (by omega)]
      omega

theorem receivedBytes_le (bytes : Buffer) : receivedBytes bytes ≤ packetSize := min_le_right _ _

theorem twelve_le_receivedBytes {bytes : Buffer} :
    12 ≤ receivedBytes bytes ↔ 12 ≤ bytes.length := by
  unfold receivedBytes packetSize
  omega

theorem Arrival.length_payload (a : Arrival) : a.payload.length = receivedBytes a.bytes - 12 := by
  rw [a.payload_eq, List.length_drop, List.length_take, receivedBytes, Nat.min_comm]

section

variable {s t : Server} {k : Nat} {i : Fin 10} {a : Arrival} {sent : List Send}

theorem expectsNext_iff {seq : UInt32} (h : TableOk s k) (huse : s.InUse i)
    (hgood : (s.slot i).isFin ≠ 1 → (s.slot i).myfile.fail = false)
    (hexpects : ExpectsNext seq i s)
    (hfin : a.isFin → a.header.id ≠ UInt16.ofNat (i.val + 1)) :
    ExpectsNext seq i (s.handle a).1 ↔ WholeHeader i s a := by
  unfold ExpectsNext WholeHeader at *
  by_cases happends : Appends a i (s.slot i)
  · have hack := ((h.effect a).moves_on h huse happends).1
    have hcontents := (h.effect a).appended h huse happends (hgood happends.notClosed)
    have hbound : (s.slot i).packHeader.ack.toNat < seqModulus := by
      rw [hexpects]
      exact Nat.mod_lt _ (by decide)
    have hlength : (seq.toNat + 1 + ((s.slot i).myfile.contents.length +
        (receivedBytes a.bytes - 12))) % seqModulus =
        ((s.slot i).packHeader.ack.toNat + (receivedBytes a.bytes - 12)) % seqModulus := by
      rw [hexpects, Nat.mod_add_mod, Nat.add_assoc (seq.toNat + 1)]
    rw [hack, hcontents, List.length_append, a.length_payload, hlength,
      toNat_advance_iff hbound (receivedBytes_le _), twelve_le_receivedBytes]
    exact ⟨fun hwhole _ => hwhole, fun hwhole => hwhole happends⟩
  · obtain ⟨hack, hcontents, -⟩ := (h.effect a).stays h huse hfin happends
    rw [hack, hcontents]
    exact iff_of_true hexpects fun hyes => absurd hyes happends

end

/-! ## Every run -/

structure Moving (seq : UInt32) (i : Fin 10) (s : Server) : Prop where
  tableOk : ∃ k, TableOk s k
  inUse : s.InUse i
  good : (s.slot i).isFin ≠ 1 → (s.slot i).myfile.fail = false
  expects : ExpectsNext seq i s

theorem moving_opened {s : Server} (hs : s.Reachable) {syn : Arrival} {i : Fin 10}
    (hopens : ¬ s.InUse i ∧ (s.handle syn).1.InUse i) (hseq : syn.header.seq.toNat ≤ 102399) :
    Moving syn.header.seq i (s.handle syn).1 := by
  obtain ⟨k, htable⟩ := hs.tableOk
  obtain ⟨hi, hslot⟩ := (htable.effect syn).opened hopens.1 hopens.2
  have hmyfile := (htable.free i hi.ge).myfile_opened syn
  refine ⟨⟨_, htable.handle syn⟩, hopens.2, fun _ => by rw [hslot, hmyfile], ?_⟩
  have hack : (syn.header.seq + 1).toNat = syn.header.seq.toNat + 1 := by
    rw [UInt32.toNat_add, UInt32.toNat_one]
    omega
  have hlt : syn.header.seq.toNat + 1 < seqModulus := by
    unfold seqModulus
    omega
  rw [ExpectsNext, hslot, hmyfile]
  show (syn.header.seq + 1).toNat = (syn.header.seq.toNat + 1 + 0) % seqModulus
  rw [hack, Nat.add_zero, Nat.mod_eq_of_lt hlt]

/-- From the `SYN` of a connection on, and until it is sent a `FIN`, the number it expects is
that of the byte after its file in every state, exactly when all its in-order data has whole
headers. -/
theorem expected_ack_iff {s : Server} (hs : s.Reachable) {syn : Arrival} {i : Fin 10}
    (hopens : ¬ s.InUse i ∧ (s.handle syn).1.InUse i) (hseq : syn.header.seq.toNat ≤ 102399)
    {arrivals : List Arrival}
    (hfin : ∀ a ∈ arrivals, a.isFin → a.header.id ≠ UInt16.ofNat (i.val + 1)) :
    (ExpectsNext syn.header.seq i (s.handle syn).1 ∧
        AlongRun Server.step (fun _ _ t => ExpectsNext syn.header.seq i t) (s.handle syn).1
          arrivals) ↔
      AlongRun Server.step (fun s a _ => WholeHeader i s a) (s.handle syn).1 arrivals := by
  have hstart := moving_opened hs hopens hseq
  rw [and_iff_right hstart.expects]
  refine alongRun_congr (I := Moving syn.header.seq i) ?_ ?_ hfin hstart
  · intro s a t hmoving hnot hstep hwhole
    obtain rfl := Option.some.inj hstep
    obtain ⟨k, htable⟩ := hmoving.tableOk
    refine ⟨⟨_, htable.handle a⟩, htable.inUse_handle hmoving.inUse a, fun hopen => ?_,
      (expectsNext_iff htable hmoving.inUse hmoving.good hmoving.expects hnot).mpr hwhole⟩
    rw [(htable.effect a).isFin_eq htable hmoving.inUse hnot] at hopen
    exact ((htable.effect a).good_iff htable hmoving.inUse hnot hopen).mpr
      ⟨hmoving.good hopen, hwhole⟩
  · intro s a t hmoving hnot hstep
    obtain rfl := Option.some.inj hstep
    obtain ⟨k, htable⟩ := hmoving.tableOk
    exact expectsNext_iff htable hmoving.inUse hmoving.good hmoving.expects hnot

theorem expected_ack_firstData :
    ExpectsNext (synOf 1).header.seq 0 (Server.start.handle (synOf 1)).1 ∧
      AlongRun Server.step (fun _ _ t => ExpectsNext (synOf 1).header.seq 0 t)
        (Server.start.handle (synOf 1)).1 [firstDataOf 1 1 [7], synOf 2] :=
  (expected_ack_iff (Reach.refl _) (by decide +kernel) (by decide +kernel)
    (by decide +kernel)).mpr (by decide +kernel)

/-- Eleven bytes of a data header: the missing one is read as a zero, the datagram is in
order, and the number goes back by one with nothing appended. -/
theorem short_datagram_moves_ack_back :
    let short : Arrival := ⟨1, (datagram ⟨12346, 4322, 1, 0⟩ []).take 11⟩
    let opened := (Server.start.handle (synOf 1)).1
    short.bytes.length = 11 ∧ Appends short 0 (opened.slot 0) ∧
      ((opened.handle short).1.slot 0).packHeader.ack = 12345 ∧
      ((opened.handle short).1.slot 0).myfile.contents = [] ∧
      (synOf 1).header.seq = 12345 ∧
      ¬ ExpectsNext (synOf 1).header.seq 0 (opened.handle short).1 := by
  decide +kernel

end Cs118.Confundo
