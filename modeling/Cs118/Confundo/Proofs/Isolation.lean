import Cs118.Confundo.Proofs.Slots
/-!
# The connection table is an invariant

Whatever comes in, ids and owners stay, one slot changes at a time, and a file
grows only by the data of its own connection.
-/

namespace Cs118.Confundo

open Cs118.Lib.Bytes
open Cs118.Lib.Run

/-- The datagram is data for the connection in slot `i`, in order and before its end. -/
structure Appends (a : Arrival) (i : Fin 10) (c : Connection) : Prop where
  data : a.isData
  id : a.header.id = UInt16.ofNat (i.val + 1)
  inOrder : a.header.seq = c.packHeader.ack
  notClosed : c.isFin ≠ 1

section

variable {s t : Server} {k : Nat} {a : Arrival} {sent : List Send}

theorem Effect.one_slot (he : Effect s k a t sent) : ∃ i, ∀ j, j ≠ i → t.slot j = s.slot j := by
  cases he with
  | opens _ i _ => exact ⟨i, fun j hj => s.slot_setSlot_of_ne hj _⟩
  | full _ _ => exact ⟨0, fun _ _ => rfl⟩
  | updates _ i _ _ => exact ⟨i, fun j hj => s.slot_setSlot_of_ne hj _⟩
  | ignored _ _ => exact ⟨0, fun _ _ => rfl⟩

theorem Effect.opened (he : Effect s k a t sent) {i : Fin 10} (hfree : ¬ s.InUse i)
    (huse : t.InUse i) : i.val = k ∧ t.slot i = s.opened a i := by
  cases he with
  | opens _ j hj =>
      by_cases hij : i = j
      · subst hij
        exact ⟨hj, s.slot_setSlot_self _ _⟩
      · rw [Server.InUse, s.slot_setSlot_of_ne hij] at huse
        exact absurd huse hfree
  | full _ _ => exact absurd huse hfree
  | updates _ j _ _ =>
      exfalso
      rw [Server.InUse, Server.slot_setSlot] at huse
      split_ifs at huse with hij
      · rw [(updates_update a _).id, ← hij] at huse
        exact hfree huse
      · exact hfree huse
  | ignored _ _ => exact absurd huse hfree

theorem Effect.keeps (h : TableOk s k) (he : Effect s k a t sent) {i : Fin 10} (hi : s.InUse i) :
    (t.slot i).packHeader.id = (s.slot i).packHeader.id ∧ (t.slot i).srcAddr = (s.slot i).srcAddr := by
  cases he with
  | opens _ j hj =>
      have hlt := h.inUse_iff.mp hi
      rw [s.slot_setSlot_of_ne fun hij => by subst hij; omega]
      exact ⟨rfl, rfl⟩
  | full _ _ => exact ⟨rfl, rfl⟩
  | updates _ j _ _ =>
      rw [Server.slot_setSlot]
      split_ifs with hij
      · subst hij
        exact ⟨(updates_update a _).id, (updates_update a _).srcAddr⟩
      · exact ⟨rfl, rfl⟩
  | ignored _ _ => exact ⟨rfl, rfl⟩

/-- The file of a slot grows by in-order data for it; no other file changes. -/
theorem contents_update (h : TableOk s k) {i : Fin 10}
    (hid : a.header.id = (s.slot i).packHeader.id) :
    (a.update (s.slot i)).1.myfile.contents = (s.slot i).myfile.contents ∨
      Appends a i (s.slot i) ∧
        (a.update (s.slot i)).1.myfile.contents = (s.slot i).myfile.contents ++ a.payload := by
  by_cases hi : i.val < k
  · have hused := h.used i hi
    by_cases hdata : a.isData
    · rw [Arrival.update_of_isData hdata]
      rcases dataBranch_cases a.packet (receivedBytes a.bytes) (s.slot i) with
        ⟨-, heq⟩ | ⟨hopen, seq, heq⟩
      · rw [heq]
        exact Or.inl (OutFile.contents_close _)
      · rw [heq]
        dsimp only
        by_cases hseq : a.packet.packHeader.seq = (s.slot i).packHeader.ack
        · rw [if_pos hseq]
          cases hfail : (s.slot i).myfile.fail with
          | true =>
              rw [OutFile.write_of_fail hfail]
              exact Or.inl rfl
          | false =>
              rw [OutFile.contents_write ⟨hused.isOpen hopen, hfail⟩, a.take_data]
              exact Or.inr ⟨⟨hdata, hid.trans hused.id, hseq, hopen⟩, rfl⟩
        · rw [if_neg hseq]
          exact Or.inl rfl
    · rw [Arrival.update_of_not_isData hdata]
      exact Or.inl rfl
  · exact Or.inl (myfile_update_of_closed (h.free i (by omega)).closed a).2

theorem update_of_appends {i : Fin 10} (happends : Appends a i (s.slot i)) :
    (a.update (s.slot i)).1.packHeader.ack =
        ((s.slot i).packHeader.ack + (UInt32.ofNat (receivedBytes a.bytes) - 12)) %
          UInt32.ofNat seqModulus ∧
      (a.update (s.slot i)).1.myfile =
        (s.slot i).myfile.write a.packet.data ((receivedBytes a.bytes : Int) - 12) := by
  have hseq : a.packet.packHeader.seq = (s.slot i).packHeader.ack := happends.inOrder
  rw [Arrival.update_of_isData happends.data]
  rcases dataBranch_cases a.packet (receivedBytes a.bytes) (s.slot i) with
    ⟨hfin, -⟩ | ⟨hopen, seq, heq⟩
  · exact absurd hfin happends.notClosed
  · rw [heq]
    exact ⟨if_pos hseq, if_pos hseq⟩

theorem Effect.moves_on (h : TableOk s k) (he : Effect s k a t sent) {i : Fin 10}
    (huse : s.InUse i) (happends : Appends a i (s.slot i)) :
    (t.slot i).packHeader.ack =
        ((s.slot i).packHeader.ack + (UInt32.ofNat (receivedBytes a.bytes) - 12)) %
          UInt32.ofNat seqModulus ∧
      (t.slot i).myfile =
        (s.slot i).myfile.write a.packet.data ((receivedBytes a.bytes : Int) - 12) := by
  have hused := h.used i (h.inUse_iff.mp huse)
  have hid : a.header.id = (s.slot i).packHeader.id := happends.id.trans hused.id.symm
  cases he with
  | opens hsyn _ _ => exact absurd hsyn (Arrival.not_isSyn (Or.inl happends.data))
  | full hsyn _ => exact absurd hsyn (Arrival.not_isSyn (Or.inl happends.data))
  | updates _ j _ hfound =>
      obtain rfl : i = j := h.id_inj huse (hid.symm.trans hfound)
      rw [Server.slot_setSlot_self]
      exact update_of_appends happends
  | ignored _ hnone => exact absurd hid (hnone (Or.inl happends.data) i)

theorem Effect.appended (h : TableOk s k) (he : Effect s k a t sent) {i : Fin 10}
    (huse : s.InUse i) (happends : Appends a i (s.slot i))
    (hgood : (s.slot i).myfile.fail = false) :
    (t.slot i).myfile.contents = (s.slot i).myfile.contents ++ a.payload := by
  have hopen := (h.used i (h.inUse_iff.mp huse)).isOpen happends.notClosed
  rw [(he.moves_on h huse happends).2, OutFile.contents_write ⟨hopen, hgood⟩, a.take_data]

/-- The stream of an open connection fails at in-order data shorter than a header. -/
theorem Effect.fail_of_appends (h : TableOk s k) (he : Effect s k a t sent) {i : Fin 10}
    (huse : s.InUse i) (happends : Appends a i (s.slot i)) :
    (t.slot i).myfile.fail = true ↔ (s.slot i).myfile.fail = true ∨ a.bytes.length < 12 := by
  have hopen := (h.used i (h.inUse_iff.mp huse)).isOpen happends.notClosed
  have hshort : (receivedBytes a.bytes : Int) - 12 < 0 ↔ a.bytes.length < 12 := by
    unfold receivedBytes packetSize
    omega
  rw [(he.moves_on h huse happends).2, OutFile.fail_write hopen, hshort]

theorem Effect.contents (h : TableOk s k) (he : Effect s k a t sent) (i : Fin 10) :
    (t.slot i).myfile.contents = (s.slot i).myfile.contents ∨
      Appends a i (s.slot i) ∧
        (t.slot i).myfile.contents = (s.slot i).myfile.contents ++ a.payload := by
  cases he with
  | opens _ j hj =>
      left
      rw [Server.slot_setSlot]
      split_ifs with hij
      · subst hij
        have hfree := h.free i (by omega)
        rw [hfree.myfile_opened, hfree.empty]
      · rfl
  | full _ _ => exact Or.inl rfl
  | updates _ j _ hid =>
      rw [Server.slot_setSlot]
      split_ifs with hij
      · subst hij
        exact contents_update h hid
      · exact Or.inl rfl
  | ignored _ _ => exact Or.inl rfl

end

theorem TableOk.inUse_handle {s : Server} {k : Nat} (h : TableOk s k) {i : Fin 10} (hi : s.InUse i)
    (a : Arrival) : (s.handle a).1.InUse i := by
  rw [Server.InUse, ((h.effect a).keeps h hi).1]
  exact hi

theorem Server.Reachable.step {s : Server} (h : s.Reachable) (a : Arrival) :
    (s.handle a).1.Reachable :=
  h.tail (a := a) trivial rfl

theorem keeps_of_reach {s t : Server} {i : Fin 10} (hs : s.Reachable)
    (h : Reach Server.step (fun _ => True) s t) (hi : s.InUse i) :
    (t.slot i).packHeader.id = (s.slot i).packHeader.id ∧ (t.slot i).srcAddr = (s.slot i).srcAddr := by
  have hkept : t.Reachable ∧ (t.slot i).packHeader.id = (s.slot i).packHeader.id ∧
      (t.slot i).srcAddr = (s.slot i).srcAddr := by
    refine Reach.invariant
      (P := fun t : Server => t.Reachable ∧ (t.slot i).packHeader.id = (s.slot i).packHeader.id ∧
        (t.slot i).srcAddr = (s.slot i).srcAddr) ?_ ⟨hs, rfl, rfl⟩ h
    rintro u a v ⟨hu, hid, howner⟩ - hstep
    obtain rfl := Option.some.inj hstep
    obtain ⟨k, htable⟩ := hu.tableOk
    have huse : u.InUse i := by
      rw [Server.InUse, hid]
      exact hi
    obtain ⟨hid', howner'⟩ := (htable.effect a).keeps htable huse
    exact ⟨hu.step a, hid'.trans hid, howner'.trans howner⟩
  exact hkept.2

/-- In every reachable state: slot `i` has id 0 or `i + 1`; the slots in use come first;
they keep id and owner in every later state; and a datagram changes one slot at most,
and the bytes of a file only by appending the payload of in-order data for it. -/
theorem connection_table {s : Server} (h : s.Reachable) :
    (∀ i, (s.slot i).packHeader.id = 0 ∨ (s.slot i).packHeader.id = UInt16.ofNat (i.val + 1)) ∧
    (∀ i j, i ≤ j → s.InUse j → s.InUse i) ∧
    (∀ t, Reach Server.step (fun _ => True) s t → ∀ i, s.InUse i →
      (t.slot i).packHeader.id = (s.slot i).packHeader.id ∧
        (t.slot i).srcAddr = (s.slot i).srcAddr) ∧
    ∀ a : Arrival,
      (∃ i, ∀ j, j ≠ i → (s.handle a).1.slot j = s.slot j) ∧
      ∀ i, ((s.handle a).1.slot i).myfile.contents ≠ (s.slot i).myfile.contents →
        Appends a i (s.slot i) ∧
          ((s.handle a).1.slot i).myfile.contents = (s.slot i).myfile.contents ++ a.payload := by
  obtain ⟨k, htable⟩ := h.tableOk
  refine ⟨fun i => ?_, fun i j hij hj => ?_, fun t ht i hi => keeps_of_reach h ht hi, fun a => ?_⟩
  · by_cases hi : i.val < k
    · exact Or.inr (htable.used i hi).id
    · exact Or.inl (htable.free i (by omega)).id
  · rw [htable.inUse_iff] at hj ⊢
    have : i.val ≤ j.val := hij
    omega
  · exact ⟨(htable.effect a).one_slot, fun i hne =>
      ((htable.effect a).contents htable i).resolve_left hne⟩

/-- Two connections, of which the first has a byte of data: the next byte for it changes its
file and nothing else, and a `FIN` leaves its id and its owner. -/
theorem connection_table_transfer :
    let s := [synOf 1, synOf 2, firstDataOf 1 1 [7]].foldl (fun s a => (s.handle a).1) Server.start
    let next : Arrival := ⟨1, datagram ⟨12347, 0, 1, 0⟩ [8]⟩
    s.slot 0 = ⟨⟨4322, 12347, 1, ackFlag⟩, ⟨afInet, 1⟩, ⟨true, false, [7]⟩, 0⟩ ∧
      (∀ i, (s.slot i).packHeader.id = 0 ∨ (s.slot i).packHeader.id = UInt16.ofNat (i.val + 1)) ∧
      (∀ i j, i ≤ j → s.InUse j → s.InUse i) ∧
      (((s.handle (finOf 2 1 0)).1.slot 0).packHeader.id = (s.slot 0).packHeader.id ∧
        ((s.handle (finOf 2 1 0)).1.slot 0).srcAddr = (s.slot 0).srcAddr) ∧
      (∃ i, ∀ j, j ≠ i → (s.handle next).1.slot j = s.slot j) ∧
      Appends next 0 (s.slot 0) ∧ ((s.handle next).1.slot 0).myfile.contents = [7] ++ [8] := by
  intro s next
  have hstart : Server.start.Reachable := Reach.refl _
  have hs : s.Reachable := ((hstart.step (synOf 1)).step (synOf 2)).step (firstDataOf 1 1 [7])
  obtain ⟨hids, hprefix, hkeeps, hchanges⟩ := connection_table hs
  obtain ⟨hone, hfiles⟩ := hchanges next
  have hused : s.InUse 0 := by decide +kernel
  have hwritten := hfiles 0 (by decide +kernel)
  refine ⟨by decide +kernel, hids, hprefix, ?_, hone, hwritten.1, ?_⟩
  · exact hkeeps _ (Reach.single (a := finOf 2 1 0) trivial rfl) 0 hused
  · rw [hwritten.2]
    decide +kernel

end Cs118.Confundo
