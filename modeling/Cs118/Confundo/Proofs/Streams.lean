import Cs118.Confundo.Proofs.Isolation
/-!
# The stream of a connection

A datagram that is shorter than its header may be in order all the same: the missing bytes
are zeros.  It is written with a negative count, and the stream fails and takes nothing any
more.
-/

namespace Cs118.Confundo

open Cs118.Lib.Bytes
open Cs118.Lib.Run

/-- The datagram is not in-order data for slot `i`, or it has a whole header. -/
def WholeHeader (i : Fin 10) (s : Server) (a : Arrival) : Prop :=
  Appends a i (s.slot i) → 12 ≤ a.bytes.length

instance (a : Arrival) (i : Fin 10) (c : Connection) : Decidable (Appends a i c) :=
  decidable_of_iff (a.isData ∧ a.header.id = UInt16.ofNat (i.val + 1) ∧
      a.header.seq = c.packHeader.ack ∧ c.isFin ≠ 1)
    ⟨fun h => ⟨h.1, h.2.1, h.2.2.1, h.2.2.2⟩, fun h => ⟨h.data, h.id, h.inOrder, h.notClosed⟩⟩

instance (i : Fin 10) (s : Server) : DecidablePred (WholeHeader i s) := fun a =>
  inferInstanceAs (Decidable (Appends a i (s.slot i) → 12 ≤ a.bytes.length))

/-! ## One datagram -/

section

variable {s t : Server} {k : Nat} {i : Fin 10} {a : Arrival} {sent : List Send}

theorem Effect.slot_cases (h : TableOk s k) (he : Effect s k a t sent) (huse : s.InUse i)
    (hfin : a.isFin → a.header.id ≠ UInt16.ofNat (i.val + 1)) :
    t.slot i = s.slot i ∨ a.isData ∧ a.header.id = UInt16.ofNat (i.val + 1) ∧
      t.slot i = (dataBranch a.packet (receivedBytes a.bytes) (s.slot i)).1 := by
  have hi := h.inUse_iff.mp huse
  cases he with
  | opens _ j hj =>
      rw [s.slot_setSlot_of_ne fun hij => by subst hij; omega]
      exact Or.inl rfl
  | full _ _ => exact Or.inl rfl
  | updates hflags j _ hid =>
      rw [Server.slot_setSlot]
      split_ifs with hij
      · subst hij
        have hmine := hid.trans (h.used i hi).id
        have hdata := hflags.resolve_right fun hisFin => hfin hisFin hmine
        rw [Arrival.update_of_isData hdata]
        exact Or.inr ⟨hdata, hmine, rfl⟩
      · exact Or.inl rfl
  | ignored _ _ => exact Or.inl rfl

theorem isFin_dataBranch (buf : Packet) (n : Nat) (c : Connection) :
    (dataBranch buf n c).1.isFin = c.isFin := by
  rcases dataBranch_cases buf n c with ⟨-, heq⟩ | ⟨-, seq, heq⟩
  · rw [heq]
  · rw [heq]

theorem Effect.isFin_eq (h : TableOk s k) (he : Effect s k a t sent) (huse : s.InUse i)
    (hfin : a.isFin → a.header.id ≠ UInt16.ofNat (i.val + 1)) :
    (t.slot i).isFin = (s.slot i).isFin := by
  rcases he.slot_cases h huse hfin with hsame | ⟨-, -, hbranch⟩
  · rw [hsame]
  · rw [hbranch, isFin_dataBranch]

theorem Effect.stays (h : TableOk s k) (he : Effect s k a t sent) (huse : s.InUse i)
    (hfin : a.isFin → a.header.id ≠ UInt16.ofNat (i.val + 1)) (hnot : ¬ Appends a i (s.slot i)) :
    (t.slot i).packHeader.ack = (s.slot i).packHeader.ack ∧
      (t.slot i).myfile.contents = (s.slot i).myfile.contents ∧
      ((s.slot i).isFin ≠ 1 → (t.slot i).myfile = (s.slot i).myfile) := by
  rcases he.slot_cases h huse hfin with hsame | ⟨hdata, hid, hbranch⟩
  · rw [hsame]
    exact ⟨rfl, rfl, fun _ => rfl⟩
  rcases dataBranch_cases a.packet (receivedBytes a.bytes) (s.slot i) with
    ⟨hclosed, heq⟩ | ⟨hopen, seq, heq⟩
  · rw [hbranch, heq]
    exact ⟨rfl, OutFile.contents_close _, fun hopen => absurd hclosed hopen⟩
  · have hseq : a.packet.packHeader.seq ≠ (s.slot i).packHeader.ack := fun hseq =>
      hnot ⟨hdata, hid, hseq, hopen⟩
    rw [hbranch, heq]
    dsimp only
    rw [if_neg hseq]
    exact ⟨if_neg hseq, rfl, fun _ => rfl⟩

theorem Effect.good_iff (h : TableOk s k) (he : Effect s k a t sent) (huse : s.InUse i)
    (hfin : a.isFin → a.header.id ≠ UInt16.ofNat (i.val + 1)) (hopen : (s.slot i).isFin ≠ 1) :
    (t.slot i).myfile.fail = false ↔ (s.slot i).myfile.fail = false ∧ WholeHeader i s a := by
  by_cases happends : Appends a i (s.slot i)
  · have hwhole : WholeHeader i s a ↔ ¬ a.bytes.length < 12 := by
      rw [WholeHeader, Nat.not_lt]
      exact ⟨fun hwhole => hwhole happends, fun hwhole _ => hwhole⟩
    rw [hwhole, ← Bool.not_eq_true, ← Bool.not_eq_true, he.fail_of_appends h huse happends, not_or]
  · rw [(he.stays h huse hfin happends).2.2 hopen]
    exact (and_iff_left fun hyes => absurd hyes happends).symm

end

/-! ## Every run -/

structure Open (i : Fin 10) (s : Server) : Prop where
  tableOk : ∃ k, TableOk s k
  inUse : s.InUse i
  notClosed : (s.slot i).isFin ≠ 1

theorem Open.handle {s : Server} {i : Fin 10} (h : Open i s) {a : Arrival}
    (hfin : a.isFin → a.header.id ≠ UInt16.ofNat (i.val + 1)) : Open i (s.handle a).1 := by
  obtain ⟨k, htable⟩ := h.tableOk
  refine ⟨⟨_, htable.handle a⟩, htable.inUse_handle h.inUse a, ?_⟩
  rw [(htable.effect a).isFin_eq htable h.inUse hfin]
  exact h.notClosed

/-- The stream of a connection is good as long as all its in-order data has had whole
headers. -/
theorem Open.good_iff {s u : Server} {i : Fin 10} (h : Open i s) {arrivals : List Arrival}
    (hfin : ∀ a ∈ arrivals, a.isFin → a.header.id ≠ UInt16.ofNat (i.val + 1))
    (hrun : run Server.step s arrivals = some u) :
    (u.slot i).myfile.fail = false ↔ (s.slot i).myfile.fail = false ∧
      AlongRun Server.step (fun s a _ => WholeHeader i s a) s arrivals := by
  refine iff_alongRun (I := Open i) (P := fun s => (s.slot i).myfile.fail = false) ?_ ?_ hfin h hrun
  · intro s a t hopen hnot hstep
    obtain rfl := Option.some.inj hstep
    exact hopen.handle hnot
  · intro s a t hopen hnot hstep
    obtain rfl := Option.some.inj hstep
    obtain ⟨k, htable⟩ := hopen.tableOk
    exact (htable.effect a).good_iff htable hopen.inUse hnot hopen.notClosed

/-- The stream has failed exactly when earlier in-order data was shorter than a header. -/
theorem Open.failed_iff {s u : Server} {i : Fin 10} (h : Open i s)
    (hgood : (s.slot i).myfile.fail = false) {arrivals : List Arrival}
    (hfin : ∀ a ∈ arrivals, a.isFin → a.header.id ≠ UInt16.ofNat (i.val + 1))
    (hrun : run Server.step s arrivals = some u) :
    (u.slot i).myfile.fail = true ↔ ∃ before a after t, arrivals = before ++ a :: after ∧
      run Server.step s before = some t ∧ Appends a i (t.slot i) ∧ a.bytes.length < 12 := by
  have hiff := h.good_iff hfin hrun
  rw [and_iff_right hgood] at hiff
  rw [← Bool.not_eq_false, hiff, not_alongRun_iff hrun]
  constructor
  · rintro ⟨before, a, after, t, -, hsplit, hbefore, -, hbad⟩
    rw [WholeHeader, Classical.not_imp, Nat.not_le] at hbad
    exact ⟨before, a, after, t, hsplit, hbefore, hbad⟩
  · rintro ⟨before, a, after, t, hsplit, hbefore, happends, hshort⟩
    exact ⟨before, a, after, t, _, hsplit, hbefore, rfl, fun hwhole =>
      absurd (hwhole happends) (Nat.not_le.mpr hshort)⟩

end Cs118.Confundo
