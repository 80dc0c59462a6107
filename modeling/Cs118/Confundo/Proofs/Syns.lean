import Cs118.Confundo.Proofs.Isolation
/-!
# Opening connections

Every `SYN` takes a slot as long as there is one, whoever sends it and however often,
and no slot is ever given back.
-/

namespace Cs118.Confundo

open Cs118.Lib.Bytes
open Cs118.Lib.Machine
open Cs118.Lib.Run

/-- The answer to a `SYN` for the connection in the slot `c`. -/
def IsSynAck (c : Connection) (syn : Arrival) (send : Send) : Prop :=
  send.1 = c.srcAddr ∧
    readHeader send.2 = ⟨4321, syn.header.seq + 1, c.packHeader.id, synAckFlag⟩

instance (c : Connection) (syn : Arrival) : DecidablePred (IsSynAck c syn) := fun send =>
  inferInstanceAs (Decidable (send.1 = c.srcAddr ∧
    readHeader send.2 = ⟨4321, syn.header.seq + 1, c.packHeader.id, synAckFlag⟩))

section

variable {s t : Server} {k : Nat} {a : Arrival} {sent : List Send}

/-! ## One datagram -/

theorem isSynAck_opened (s : Server) (a : Arrival) (i : Fin 10) :
    IsSynAck (s.opened a i) a (reply (s.opened a i) a.packet) :=
  ⟨rfl, readHeader_datagram _ _⟩

/-- What the scan sends back to the slots it passes is no answer: it is still in host order. -/
theorem not_isSynAck_echo (hsyn : a.isSyn) (c : Connection) {send : Send}
    (h : send ∈ s.echoes k a) : ¬ IsSynAck c a send := by
  obtain ⟨b, -, rfl⟩ := List.mem_map.mp h
  rintro ⟨-, hheader⟩
  have hflags : (readHeader (echo a.packet b).2).flags = ntohs synFlag := by
    rw [echo, readHeader_image]
    exact congrArg ntohs hsyn
  rw [hheader] at hflags
  exact absurd hflags (by decide : synAckFlag ≠ ntohs synFlag)

theorem Effect.serves (he : Effect s k a t sent) {addr : SockAddr} {i : Fin 10}
    (hi : t.Serves addr i) : s.Serves addr i ∨ a.isSyn ∧ addr = a.addr ∧ i.val = k := by
  cases he with
  | opens hsyn j hj =>
      by_cases hij : i = j
      · subst hij
        have howner := hi.owner
        rw [Server.slot_setSlot_self] at howner
        exact Or.inr ⟨hsyn, howner.symm, hj⟩
      · obtain ⟨huse, howner, hopen⟩ := hi
        rw [Server.InUse] at huse
        rw [s.slot_setSlot_of_ne hij] at huse howner hopen
        exact Or.inl ⟨huse, howner, hopen⟩
  | full _ _ => exact Or.inl hi
  | updates _ j _ _ =>
      left
      have hc := updates_update a (s.slot j)
      obtain ⟨huse, howner, hopen⟩ := hi
      rw [Server.InUse] at huse
      rw [Server.slot_setSlot] at huse howner hopen
      split_ifs at huse howner hopen with hij
      · subst hij
        rw [hc.id] at huse
        exact ⟨huse, hc.srcAddr.symm.trans howner, fun hfin => hopen (hc.isFin hfin)⟩
      · exact ⟨huse, howner, hopen⟩
  | ignored _ _ => exact Or.inl hi

theorem Effect.syn_cases (he : Effect s k a t sent) (hsyn : a.isSyn) :
    (∃ i : Fin 10, i.val = k ∧ t = s.setSlot i (s.opened a i) ∧
      sent = s.echoes k a ++ [reply (s.opened a i) a.packet]) ∨
    k = 10 ∧ t = s ∧ sent = s.echoes k a := by
  cases he with
  | opens _ i hi => exact Or.inl ⟨i, hi, rfl, rfl⟩
  | full _ hk => exact Or.inr ⟨hk, rfl, hk ▸ rfl⟩
  | updates hflags _ _ _ => exact absurd hsyn (Arrival.not_isSyn hflags)
  | ignored hnot _ => exact absurd hsyn hnot

end

/-! ## A `SYN` that comes again -/

/-- At most one slot serves the client, and a copy of its `SYN` that comes while one does
changes nothing and is answered with the `SYN-ACK` of that connection. -/
def SynIdempotent (syn : Arrival) (s : Server) (a : Arrival) (t : Server) : Prop :=
  (∀ i j, t.Serves syn.addr i → t.Serves syn.addr j → i = j) ∧
  (a = syn → ∀ i, s.Serves syn.addr i →
    t = s ∧ ∃ send ∈ (s.handle a).2, IsSynAck (s.slot i) syn send)

/-- The datagram is no copy of the `SYN` of a client that has a connection. -/
def NotRepeated (syn : Arrival) (s : Server) (a : Arrival) (_t : Server) : Prop :=
  a = syn → ∀ i, ¬ s.Serves syn.addr i

theorem not_synIdempotent {s t : Server} {k : Nat} {syn : Arrival} (h : TableOk s k)
    (hsyn : syn.isSyn) (ht : t = (s.handle syn).1) {i : Fin 10} (hi : s.Serves syn.addr i) :
    ¬ SynIdempotent syn s syn t := by
  rintro ⟨-, hrepeat⟩
  obtain ⟨hsame, send, hsend, hanswer⟩ := hrepeat rfl i hi
  rcases (h.effect syn).syn_cases hsyn with ⟨j, hj, hnext, -⟩ | ⟨-, -, hsent⟩
  · -- the slot that has been opened was free
    have hfree := h.free j (by omega)
    have hid := hfree.id
    rw [← hsame, ht, hnext, Server.slot_setSlot_self] at hid
    exact (SlotUsed.opened hfree syn).id_ne_zero hid
  · rw [hsent] at hsend
    exact not_isSynAck_echo hsyn _ hsend hanswer

structure OneSlot (syn : Arrival) (s : Server) : Prop where
  tableOk : ∃ k, TableOk s k
  unique : ∀ i j, s.Serves syn.addr i → s.Serves syn.addr j → i = j

theorem OneSlot.handle {syn a : Arrival} {s : Server} (h : OneSlot syn s)
    (hcopies : a.isSyn → a.sender = syn.sender → a = syn)
    (hnot : NotRepeated syn s a (s.handle a).1) : OneSlot syn (s.handle a).1 := by
  obtain ⟨k, htable⟩ := h.tableOk
  refine ⟨⟨_, htable.handle a⟩, fun i j hi hj => ?_⟩
  have hnew : a.isSyn → syn.addr = a.addr → ∀ j, ¬ s.Serves syn.addr j := fun hsyn haddr =>
    hnot (hcopies hsyn (by simpa [Arrival.addr] using haddr.symm))
  rcases (htable.effect a).serves hi with hi | ⟨hsyn, haddr, hik⟩ <;>
    rcases (htable.effect a).serves hj with hj | ⟨hsyn', haddr', hjk⟩
  · exact h.unique i j hi hj
  · exact absurd hi (hnew hsyn' haddr' i)
  · exact absurd hj (hnew hsyn haddr j)
  · exact Fin.ext (hik.trans hjk.symm)

/-- From any reachable state, while a client without a connection sends copies of one `SYN`
and anyone sends anything else: repeated `SYN`s are harmless exactly when there are none. -/
theorem syn_idempotent_iff {s : Server} (hs : s.Reachable) {syn : Arrival} (hsyn : syn.isSyn)
    (hnew : ∀ i, ¬ s.Serves syn.addr i) {arrivals : List Arrival}
    (hcopies : ∀ a ∈ arrivals, a.isSyn → a.sender = syn.sender → a = syn) :
    AlongRun Server.step (SynIdempotent syn) s arrivals ↔
      AlongRun Server.step (NotRepeated syn) s arrivals := by
  refine alongRun_congr (I := OneSlot syn) ?_ ?_ hcopies
    ⟨hs.tableOk, fun i j hi => absurd hi (hnew i)⟩
  · intro s a t hone hcopy hstep hnot
    obtain rfl := Option.some.inj hstep
    exact hone.handle hcopy hnot
  · intro s a t hone hcopy hstep
    obtain rfl := Option.some.inj hstep
    constructor
    · rintro hidempotent rfl i hi
      obtain ⟨k, htable⟩ := hone.tableOk
      exact not_synIdempotent htable hsyn rfl hi hidempotent
    · intro hnot
      exact ⟨(hone.handle hcopy hnot).unique, fun heq i hi => absurd hi (hnot heq i)⟩

theorem syn_idempotent_two_clients :
    AlongRun Server.step (SynIdempotent (synOf 1)) Server.start
        [synOf 1, firstDataOf 1 1 [7], synOf 2] ↔
      AlongRun Server.step (NotRepeated (synOf 1)) Server.start
        [synOf 1, firstDataOf 1 1 [7], synOf 2] :=
  syn_idempotent_iff (Reach.refl _) (by decide +kernel) (by decide +kernel) (by decide +kernel)

/-- One `SYN`, sent twice, opens two connections. -/
theorem second_slot_for_syn :
    let once := (Server.start.handle (synOf 1)).1
    let twice := (once.handle (synOf 1)).1
    twice.Serves (synOf 1).addr 0 ∧ twice.Serves (synOf 1).addr 1 ∧ twice ≠ once ∧
      ¬ AlongRun Server.step (SynIdempotent (synOf 1)) Server.start [synOf 1, synOf 1] := by
  refine ⟨by decide +kernel, by decide +kernel, by decide +kernel, fun h => ?_⟩
  have hunique := ((h _ rfl).2 _ rfl).1.1 0 1 (by decide +kernel) (by decide +kernel)
  exact absurd hunique (by decide)

/-! ## Connections after connections -/

def Server.openConnections (s : Server) : Nat :=
  s.allConnection.countP fun c => c.packHeader.id ≠ 0 ∧ c.isFin ≠ 1

/-- A `SYN` is given a free slot and answered. -/
def Accepts (s : Server) (syn : Arrival) : Prop :=
  ∃ i, ¬ s.InUse i ∧ (s.handle syn).1.InUse i ∧
    ((s.handle syn).1.slot i).srcAddr = syn.addr ∧
    ∃ send ∈ (s.handle syn).2, IsSynAck ((s.handle syn).1.slot i) syn send

theorem accepts_iff {s : Server} {k : Nat} {syn : Arrival} (h : TableOk s k) (hsyn : syn.isSyn) :
    Accepts s syn ↔ k < 10 := by
  constructor
  · rintro ⟨i, hfree, -⟩
    rw [h.inUse_iff] at hfree
    omega
  · intro hk
    rcases (h.effect syn).syn_cases hsyn with ⟨i, hi, hnext, hsent⟩ | ⟨hfull, -⟩
    · refine ⟨i, ?_, ?_⟩
      · rw [h.inUse_iff]
        omega
      · rw [Server.InUse, hnext, hsent, Server.slot_setSlot_self]
        exact ⟨(SlotUsed.opened (h.free i hi.ge) syn).id_ne_zero, rfl, _,
          List.mem_append_right _ (List.mem_singleton_self _), isSynAck_opened s syn i⟩
    · omega

/-- Every `SYN` has taken a slot, and no slot has come back. -/
theorem tableOk_run {arrivals : List Arrival} {s t : Server} {k : Nat} (h : TableOk s k)
    (hrun : run Server.step s arrivals = some t) :
    TableOk t (min 10 (k + arrivals.countP (·.isSyn))) := by
  induction arrivals generalizing s k with
  | nil =>
      obtain rfl : s = t := by simpa using hrun
      have hle := h.le
      rwa [List.countP_nil, Nat.add_zero, min_eq_right hle]
  | cons a arrivals ih =>
      obtain ⟨u, hstep, hrest⟩ := run_cons_eq_some hrun
      obtain rfl := Option.some.inj hstep
      have htable := ih (h.handle a) hrest
      have hcount : min 10 (usedAfter k a + arrivals.countP (·.isSyn)) =
          min 10 (k + (a :: arrivals).countP (·.isSyn)) := by
        unfold usedAfter
        by_cases hsyn : a.isSyn
        · rw [if_pos hsyn, List.countP_cons_of_pos (by simpa using hsyn)]
          omega
        · rw [if_neg hsyn, List.countP_cons_of_neg (by simpa using hsyn)]
      rwa [hcount] at htable

theorem openConnections_le (s : Server) : s.openConnections ≤ 10 := by
  rw [← s.size_eq]
  exact List.countP_le_length

/-- After any run, a `SYN` is accepted whenever fewer than ten connections are open if and
only if fewer than ten `SYN`s have come in so far, or all ten connections are open. -/
theorem slots_recovered_iff {arrivals : List Arrival} {s : Server}
    (hrun : run Server.step Server.start arrivals = some s) {syn : Arrival} (hsyn : syn.isSyn) :
    (s.openConnections < 10 → Accepts s syn) ↔
      (arrivals.countP (·.isSyn) < 10 ∨ s.openConnections = 10) := by
  have htable := tableOk_run TableOk.start hrun
  have hle := openConnections_le s
  rw [accepts_iff htable hsyn]
  omega

/-- The server after the `n` transfers of `n` clients, one after another. -/
def transfers (n : Nat) : List Arrival :=
  (List.range n).flatMap fun i => transferOf i (UInt16.ofNat (i + 1))

def afterTransfers (n : Nat) : Server := final Server.handle Server.start (transfers n)

theorem slots_recovered_nine :
    ((afterTransfers 9).openConnections < 10 → Accepts (afterTransfers 9) (synOf 9)) ↔
      ((transfers 9).countP (·.isSyn) < 10 ∨ (afterTransfers 9).openConnections = 10) :=
  slots_recovered_iff (run_final Server.handle _ _) (by decide +kernel)

/-- Ten transfers have been completed and closed, and the eleventh client is turned away. -/
theorem eleventh_client_refused :
    (afterTransfers 10).Reachable ∧ (afterTransfers 10).openConnections = 0 ∧
      (synOf 10).isSyn ∧ (afterTransfers 10).handle (synOf 10) =
        (afterTransfers 10, (afterTransfers 10).echoes 10 (synOf 10)) ∧
      ¬ Accepts (afterTransfers 10) (synOf 10) := by
  have hrun : run Server.step Server.start (transfers 10) = some (afterTransfers 10) :=
    run_final Server.handle _ _
  have hsyn : (synOf 10).isSyn := by decide +kernel
  have hfull : min 10 (0 + (transfers 10).countP (·.isSyn)) = 10 := by decide +kernel
  have htable : TableOk (afterTransfers 10) 10 := by
    have := tableOk_run TableOk.start hrun
    rwa [hfull] at this
  refine ⟨reach_of_run (fun _ _ => trivial) hrun, by decide +kernel, hsyn, ?_, ?_⟩
  · rcases (htable.effect (synOf 10)).syn_cases hsyn with ⟨i, hi, -⟩ | ⟨-, hsame, hsent⟩
    · omega
    · exact Prod.ext hsame hsent
  · rw [accepts_iff htable hsyn]
    omega

end Cs118.Confundo
