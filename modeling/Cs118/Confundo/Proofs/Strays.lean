import Cs118.Confundo.Proofs.Streams
/-!
# Datagrams for no connection

A free slot has id 0, and so have stray datagrams that carry no id.  Such a datagram is
taken for one of the first free slot, and `is_FIN` survives the opening of that slot.
Data is also lost when the stream of its own connection has failed.
-/

namespace Cs118.Confundo

open Cs118.Lib.Bytes
open Cs118.Lib.Run

/-- A data, `ACK` or `FIN` datagram whose id is that of no connection. -/
def Stray (s : Server) (a : Arrival) : Prop :=
  (a.isData ∨ a.isFin) ∧ ∀ i, s.InUse i → a.header.id ≠ (s.slot i).packHeader.id

instance (s : Server) : DecidablePred (Stray s) := fun a =>
  inferInstanceAs (Decidable ((a.isData ∨ a.isFin) ∧
    ∀ i, s.InUse i → a.header.id ≠ (s.slot i).packHeader.id))

/-- A stray datagram changes nothing; a connection that is set up starts open; and the
in-order data of an open connection is appended. -/
structure StrayHarmless (s : Server) (a : Arrival) (t : Server) : Prop where
  unchanged : Stray s a → t = s
  startsOpen : ∀ i, ¬ s.InUse i → t.InUse i →
    (t.slot i).isFin = 0 ∧ (t.slot i).myfile = ⟨true, false, []⟩
  appends : ∀ i, s.InUse i → Appends a i (s.slot i) →
    (t.slot i).myfile.contents = (s.slot i).myfile.contents ++ a.payload

/-- A stray datagram has an id, or there is no free slot for it to be taken for. -/
def StrayHasId (s : Server) (a : Arrival) (_t : Server) : Prop :=
  Stray s a → a.header.id = 0 → ∀ i, s.InUse i

/-- In-order data other than an empty segment finds the stream of its connection good. -/
def StreamTakes (s : Server) (a : Arrival) (_t : Server) : Prop :=
  ∀ i, s.InUse i → Appends a i (s.slot i) → a.payload ≠ [] → (s.slot i).myfile.fail = false

structure Untouched (s : Server) (k : Nat) : Prop where
  tableOk : TableOk s k
  unused : ∀ i : Fin 10, k ≤ i.val → s.slot i = Connection.unused

theorem Untouched.start : Untouched Server.start 0 :=
  ⟨TableOk.start, fun i _ => Server.slot_start i⟩

section

variable {s t : Server} {k : Nat} {a : Arrival} {sent : List Send}

theorem update_unused_ne (a : Arrival) : (a.update Connection.unused).1 ≠ Connection.unused := by
  intro hsame
  have hflags := congrArg (fun c : Connection => c.packHeader.flags) hsame
  unfold Arrival.update at hflags
  split_ifs at hflags
  · rcases dataBranch_cases a.packet (receivedBytes a.bytes) Connection.unused with
      ⟨hfin, -⟩ | ⟨-, seq, heq⟩
    · exact absurd hfin (by decide)
    · rw [heq] at hflags
      exact absurd hflags (by decide : ackFlag ≠ 0)
  · exact absurd hflags (by decide : ackFlag ≠ 0)

theorem Effect.stray_cases (h : Untouched s k) (he : Effect s k a t sent) (hstray : Stray s a) :
    (a.header.id = 0 ∧ k < 10 ∧ t ≠ s) ∨ (¬ (a.header.id = 0 ∧ k < 10) ∧ t = s) := by
  cases he with
  | opens hsyn _ _ => exact absurd hsyn (Arrival.not_isSyn hstray.1)
  | full hsyn _ => exact absurd hsyn (Arrival.not_isSyn hstray.1)
  | updates _ i hi hid =>
      left
      have hik : i.val = k := by
        by_contra hne
        exact hstray.2 i (h.tableOk.inUse_iff.mpr (by omega)) hid
      have hunused := h.unused i (by omega)
      refine ⟨by rw [hid, hunused]; rfl, by have := i.isLt; omega, fun hsame => ?_⟩
      have hslot := s.slot_setSlot_self i (a.update (s.slot i)).1
      rw [hsame, hunused] at hslot
      exact update_unused_ne a hslot.symm
  | ignored _ hid =>
      refine Or.inr ⟨fun ⟨hzero, hk⟩ => ?_, rfl⟩
      exact hid hstray.1 ⟨k, hk⟩ (hzero.trans (h.tableOk.free ⟨k, hk⟩ le_rfl).id.symm)

theorem Effect.untouched (h : Untouched s k) (he : Effect s k a t sent)
    (hid : StrayHasId s a t) : Untouched t (usedAfter k a) := by
  have hle := h.tableOk.le
  refine ⟨he.tableOk h.tableOk, ?_⟩
  unfold usedAfter
  cases he with
  | opens hsyn i hi =>
      intro j hj
      rw [if_pos hsyn] at hj
      have hlt := i.isLt
      rw [s.slot_setSlot_of_ne fun hij => by subst hij; omega]
      exact h.unused j (by omega)
  | full hsyn hk =>
      intro j hj
      exact h.unused j (by rw [if_pos hsyn] at hj; omega)
  | updates hflags i hi hfound =>
      rw [if_neg (Arrival.not_isSyn hflags)]
      intro j hj
      rw [Server.slot_setSlot]
      split_ifs with hij
      · -- a datagram for a free slot is stray, and has id 0
        exfalso
        subst hij
        have hunused := h.unused j hj
        have hzero : a.header.id = 0 := by rw [hfound, hunused]; rfl
        have hstray : Stray s a := ⟨hflags, fun i hi heq => hi (heq.symm.trans hzero)⟩
        exact hid hstray hzero j (by rw [hunused]; rfl)
      · exact h.unused j hj
  | ignored hsyn _ =>
      rw [if_neg hsyn]
      exact h.unused

theorem Effect.startsOpen (h : Untouched s k) (he : Effect s k a t sent) {i : Fin 10}
    (hfree : ¬ s.InUse i) (huse : t.InUse i) :
    (t.slot i).isFin = 0 ∧ (t.slot i).myfile = ⟨true, false, []⟩ := by
  obtain ⟨hi, hslot⟩ := he.opened hfree huse
  rw [hslot, Server.opened, h.unused i (by omega)]
  exact ⟨rfl, rfl⟩

theorem Effect.appended_iff (h : TableOk s k) (he : Effect s k a t sent) {i : Fin 10}
    (huse : s.InUse i) (happends : Appends a i (s.slot i)) :
    (t.slot i).myfile.contents = (s.slot i).myfile.contents ++ a.payload ↔
      (a.payload ≠ [] → (s.slot i).myfile.fail = false) := by
  cases hfail : (s.slot i).myfile.fail with
  | false => exact iff_of_true (he.appended h huse happends hfail) fun _ => rfl
  | true =>
      rw [(he.moves_on h huse happends).2, OutFile.write_of_fail hfail]
      simp

end

/-- One datagram, on a table whose free slots nothing has reached. -/
theorem strayHarmless_iff {s : Server} {k : Nat} {a : Arrival} (h : Untouched s k) :
    StrayHarmless s a (s.handle a).1 ↔
      StrayHasId s a (s.handle a).1 ∧ StreamTakes s a (s.handle a).1 := by
  have heffect := h.tableOk.effect a
  have hfull : (∀ i, s.InUse i) ↔ ¬ k < 10 := by
    constructor
    · intro hall hk
      exact absurd (h.tableOk.inUse_iff.mp (hall ⟨k, hk⟩)) (lt_irrefl k)
    · intro hk i
      exact h.tableOk.inUse_iff.mpr (by have := i.isLt; omega)
  constructor
  · intro hharmless
    refine ⟨fun hstray hzero => ?_, fun i huse happends => ?_⟩
    · rw [hfull]
      intro hk
      rcases heffect.stray_cases h hstray with ⟨-, -, hne⟩ | ⟨hnot, -⟩
      · exact hne (hharmless.unchanged hstray)
      · exact hnot ⟨hzero, hk⟩
    · exact (heffect.appended_iff h.tableOk huse happends).mp (hharmless.appends i huse happends)
  · rintro ⟨hid, htakes⟩
    refine ⟨fun hstray => ?_, fun i hfree huse => heffect.startsOpen h hfree huse,
      fun i huse happends =>
        (heffect.appended_iff h.tableOk huse happends).mpr (htakes i huse happends)⟩
    rcases heffect.stray_cases h hstray with ⟨hzero, hk, -⟩ | ⟨-, hsame⟩
    · exact absurd hk (hfull.mp (hid hstray hzero))
    · exact hsame

/-- In every run, datagrams for no connection have no effect, and the connections set up
afterwards start open and get their data, if and only if each such datagram carries an id
other than 0 or finds all ten slots in use, and no data comes for a connection whose stream
has failed. -/
theorem strays_harmless_iff (arrivals : List Arrival) :
    AlongRun Server.step StrayHarmless Server.start arrivals ↔
      AlongRun Server.step (fun s a t => StrayHasId s a t ∧ StreamTakes s a t) Server.start
        arrivals := by
  refine alongRun_congr (I := fun s => ∃ k, Untouched s k) ?_ ?_ (fun _ _ => trivial)
    ⟨0, Untouched.start⟩
  · rintro s a t ⟨k, h⟩ - hstep ⟨hid, -⟩
    obtain rfl := Option.some.inj hstep
    exact ⟨_, (h.tableOk.effect a).untouched h hid⟩
  · rintro s a t ⟨k, h⟩ - hstep
    obtain rfl := Option.some.inj hstep
    exact strayHarmless_iff h

/-- A `FIN` without an id, and then a client: its connection is closed from the start and
its data is lost. -/
theorem stray_fin_closes_next_connection :
    let stray := finOf 9 0 0
    let s := (Server.start.handle stray).1
    let opened := (s.handle (synOf 1)).1
    Stray Server.start stray ∧ s ≠ Server.start ∧
      (opened.slot 0).packHeader.id = 1 ∧ (opened.slot 0).isFin = 1 ∧
      ((opened.handle (firstDataOf 1 1 [7])).1.slot 0).myfile.contents = [] ∧
      ¬ AlongRun Server.step StrayHarmless Server.start [stray, synOf 1, firstDataOf 1 1 [7]] := by
  refine ⟨by decide +kernel, by decide +kernel, by decide +kernel, by decide +kernel,
    by decide +kernel, fun h => ?_⟩
  have hsame := (h _ rfl).1.unchanged (by decide +kernel)
  exact absurd hsame (by decide +kernel)

end Cs118.Confundo
