import Cs118.Confundo.Proofs.Isolation
/-!
# What one client notices of the others

The data of the other clients reaches only their own slots.  Their `SYN`s do not: the
scan sends something to the owner of every slot it passes.
-/

namespace Cs118.Confundo

open Cs118.Lib.Bytes
open Cs118.Lib.Machine
open Cs118.Lib.Run

def clientAddr (client : Nat) : SockAddr := ⟨afInet, client⟩

def toClient (client : Nat) (send : Send) : Bool := send.1 = clientAddr client

/-- The other clients send `SYN`s, and datagrams with the ids of their own connections. -/
def Disciplined (client : Nat) (s : Server) (a : Arrival) : Prop :=
  a.sender ≠ client → a.isSyn ∨
    ∃ i, s.InUse i ∧ (s.slot i).srcAddr = a.addr ∧ a.header.id = (s.slot i).packHeader.id

instance (client : Nat) (s : Server) : DecidablePred (Disciplined client s) := fun a =>
  inferInstanceAs (Decidable (a.sender ≠ client → a.isSyn ∨
    ∃ i, s.InUse i ∧ (s.slot i).srcAddr = a.addr ∧ a.header.id = (s.slot i).packHeader.id))

/-- Without the datagrams of the others the client would have the same slot and file, and be
sent the same datagrams. -/
def Undisturbed (client : Nat) (i : Fin 10) (s : Server) (arrivals : List Arrival) : Prop :=
  let own := arrivals.filter (·.sender = client)
  (final Server.handle s arrivals).slot i = (final Server.handle s own).slot i ∧
    (outputs Server.handle s arrivals).filter (toClient client) =
      (outputs Server.handle s own).filter (toClient client)

theorem addr_eq_clientAddr_iff {a : Arrival} {client : Nat} :
    a.addr = clientAddr client ↔ a.sender = client := by
  simp [Arrival.addr, clientAddr]

/-! ## Without the `SYN`s of the others -/

/-- The two tables differ at most in what the slots of other clients hold. -/
structure Alike (client : Nat) (s t : Server) : Prop where
  tables : ∃ k, TableOk s k ∧ TableOk t k
  owner : ∀ i, (s.slot i).srcAddr = (t.slot i).srcAddr
  same : ∀ i, (s.slot i).srcAddr = clientAddr client ∨ ¬ s.InUse i → s.slot i = t.slot i

theorem Alike.refl {client : Nat} {s : Server} {k : Nat} (h : TableOk s k) : Alike client s s :=
  ⟨⟨k, h, h⟩, fun _ => rfl, fun _ _ => rfl⟩

section

variable {client : Nat} {s t : Server} {k : Nat} {a : Arrival}

theorem echoes_congr (howner : ∀ i, (s.slot i).srcAddr = (t.slot i).srcAddr) (k : Nat)
    (a : Arrival) : s.echoes k a = t.echoes k a := by
  have howners : s.allConnection.map (·.srcAddr) = t.allConnection.map (·.srcAddr) := by
    apply List.ext_getElem?
    intro n
    by_cases hn : n < 10
    · have hs := s.getElem?_slot ⟨n, hn⟩
      have ht := t.getElem?_slot ⟨n, hn⟩
      simp only at hs ht
      simp [List.getElem?_map, hs, ht, howner]
    · rw [List.getElem?_eq_none (by simp [s.size_eq]; omega),
        List.getElem?_eq_none (by simp [t.size_eq]; omega)]
  have hecho : ∀ u : Server, u.echoes k a = ((u.allConnection.map (·.srcAddr)).take k).map
      fun addr => (addr, a.packet.packHeader.image ++ a.packet.data) := by
    intro u
    rw [← List.map_take, List.map_map]
    rfl
  rw [hecho, hecho, howners]

theorem Alike.slot_id (h : Alike client s t) (i : Fin 10) :
    (t.slot i).packHeader.id = (s.slot i).packHeader.id := by
  obtain ⟨k, hs, ht⟩ := h.tables
  by_cases hi : i.val < k
  · rw [(hs.used i hi).id, (ht.used i hi).id]
  · rw [(hs.free i (by omega)).id, (ht.free i (by omega)).id]

theorem Alike.opens (h : Alike client s t) (hs : TableOk s k) (ht : TableOk t k) {i : Fin 10}
    (hi : i.val = k) :
    Alike client (s.setSlot i (s.opened a i)) (t.setSlot i (t.opened a i)) := by
  have hfree : s.slot i = t.slot i :=
    h.same i (Or.inr fun huse => by have := hs.inUse_iff.mp huse; omega)
  refine ⟨⟨k + 1, hs.opens hi, ht.opens hi⟩, fun j => ?_, fun j hj => ?_⟩
  · rw [Server.slot_setSlot, Server.slot_setSlot]
    split_ifs
    · rfl
    · exact h.owner j
  · rw [Server.InUse] at hj
    rw [Server.slot_setSlot] at hj ⊢
    rw [Server.slot_setSlot]
    split_ifs at hj ⊢
    · rw [Server.opened, Server.opened, hfree]
    · exact h.same j hj

theorem Alike.setSlot_left (h : Alike client s t) {i : Fin 10} (a : Arrival) (huse : s.InUse i)
    (howner : (s.slot i).srcAddr ≠ clientAddr client) :
    Alike client (s.setSlot i (a.update (s.slot i)).1) t := by
  obtain ⟨k, hs, ht⟩ := h.tables
  have hc := updates_update a (s.slot i)
  refine ⟨⟨k, hs.update a i, ht⟩, fun j => ?_, fun j hj => ?_⟩
  · rw [Server.slot_setSlot]
    split_ifs with hij
    · rw [hc.srcAddr, hij]
      exact h.owner i
    · exact h.owner j
  · rw [Server.InUse] at hj
    rw [Server.slot_setSlot] at hj ⊢
    split_ifs at hj ⊢ with hij
    · rw [hc.srcAddr, hc.id] at hj
      rcases hj with hj | hj
      · exact absurd hj howner
      · exact absurd huse hj
    · exact h.same j hj

theorem Alike.setSlot (h : Alike client s t) (i : Fin 10) (a : Arrival) :
    Alike client (s.setSlot i (a.update (s.slot i)).1) (t.setSlot i (a.update (t.slot i)).1) := by
  obtain ⟨k, hs, ht⟩ := h.tables
  refine ⟨⟨k, hs.update a i, ht.update a i⟩, fun j => ?_, fun j hj => ?_⟩
  · rw [Server.slot_setSlot, Server.slot_setSlot]
    split_ifs
    · rw [(updates_update a _).srcAddr, (updates_update a _).srcAddr]
      exact h.owner i
    · exact h.owner j
  · rw [Server.InUse] at hj
    rw [Server.slot_setSlot] at hj ⊢
    rw [Server.slot_setSlot]
    split_ifs at hj ⊢
    · rw [(updates_update a _).srcAddr, (updates_update a _).id] at hj
      rw [h.same i hj]
    · exact h.same j hj

theorem filter_update {c : Connection} (h : c.srcAddr ≠ clientAddr client) (a : Arrival) :
    (a.update c).2.filter (toClient client) = [] := by
  rw [List.filter_eq_nil_iff]
  intro send hsend
  rw [toClient, (sends_update hsend).1]
  simpa using h

/-- A datagram of the client does the same in both tables, as far as the client can tell. -/
theorem Alike.both (h : Alike client s t) (a : Arrival) :
    Alike client (s.handle a).1 (t.handle a).1 ∧
      (s.handle a).2.filter (toClient client) = (t.handle a).2.filter (toClient client) := by
  obtain ⟨k, hs, ht⟩ := h.tables
  have heffect := hs.effect a
  generalize s.handle a = next at heffect ⊢
  obtain ⟨s', sent⟩ := next
  dsimp only at heffect ⊢
  cases heffect with
  | opens hsyn i hi =>
      have hfree : s.slot i = t.slot i :=
        h.same i (Or.inr fun huse => by have := hs.inUse_iff.mp huse; omega)
      rw [ht.handle_syn hsyn hi]
      refine ⟨h.opens hs ht hi, ?_⟩
      rw [echoes_congr h.owner, Server.opened, Server.opened, hfree]
  | full hsyn hk =>
      subst hk
      rw [ht.handle_syn_full hsyn]
      exact ⟨h, by rw [echoes_congr h.owner]⟩
  | updates hflags i hi hid =>
      rw [ht.handle_update hflags hi (hid.trans (h.slot_id i).symm)]
      refine ⟨h.setSlot i a, ?_⟩
      by_cases hsame : (s.slot i).srcAddr = clientAddr client ∨ ¬ s.InUse i
      · rw [h.same i hsame]
      · have hother : (s.slot i).srcAddr ≠ clientAddr client := fun heq => hsame (Or.inl heq)
        rw [filter_update hother, filter_update (by rw [← h.owner i]; exact hother)]
  | ignored hsyn hid =>
      rw [handle_ignored hsyn fun hflags i => by rw [h.slot_id]; exact hid hflags i]
      exact ⟨h, rfl⟩

/-- The client does not notice a datagram with the id of another one's connection. -/
theorem Alike.first (h : Alike client s t) (hsyn : ¬ a.isSyn) (hother : a.sender ≠ client)
    (hd : Disciplined client s a) :
    Alike client (s.handle a).1 t ∧ (s.handle a).2.filter (toClient client) = [] := by
  obtain ⟨k, hs, ht⟩ := h.tables
  obtain ⟨i, huse, howner, hid⟩ := (hd hother).resolve_left hsyn
  have hne : (s.slot i).srcAddr ≠ clientAddr client := by
    rw [howner, ne_eq, addr_eq_clientAddr_iff]
    exact hother
  by_cases hflags : a.isData ∨ a.isFin
  · rw [hs.handle_update hflags (Nat.le_of_lt (hs.inUse_iff.mp huse)) hid]
    exact ⟨h.setSlot_left a huse hne, filter_update hne a⟩
  · rw [handle_ignored hsyn fun hupdate => absurd hupdate hflags]
    exact ⟨h, rfl⟩

end

theorem unwinds (client : Nat) :
    Unwinds Server.handle (fun a => a.sender = client) (toClient client)
      (fun s a => Disciplined client s a ∧ (a.sender ≠ client → ¬ a.isSyn)) (Alike client) where
  both _ _ a h _ _ := h.both a
  first _ _ _ h hallowed hother := h.first (hallowed.2 hother) hother hallowed.1

/-! ## Counting what the client is sent

The scan's datagrams are in host order, which their flags show.  A `SYN` of the client is
answered once as long as there is a free slot, and any `SYN` sends one datagram to each
slot of the client. -/

def countTo (client : Nat) (flags : UInt16) (sends : List Send) : Nat :=
  sends.countP fun send => send.1 = clientAddr client ∧ (readHeader send.2).flags = flags

def owned (client : Nat) (s : Server) : Nat :=
  s.allConnection.countP fun c => c.srcAddr = clientAddr client

theorem countTo_append (client : Nat) (flags : UInt16) (first second : List Send) :
    countTo client flags (first ++ second) =
      countTo client flags first + countTo client flags second :=
  List.countP_append

theorem countTo_eq_of_filter {client : Nat} {first second : List Send}
    (h : first.filter (toClient client) = second.filter (toClient client)) (flags : UInt16) :
    countTo client flags first = countTo client flags second := by
  have hcount : ∀ sends : List Send, countTo client flags sends =
      (sends.filter (toClient client)).countP fun send => (readHeader send.2).flags = flags := by
    intro sends
    rw [List.countP_filter]
    apply List.countP_congr
    intro send _
    simp [toClient, and_comm]
  rw [hcount, hcount, h]

section

variable {client : Nat} {s t : Server} {k : Nat} {a : Arrival}

theorem countTo_update {flags : UInt16} (hack : flags ≠ ackFlag) (hfin : flags ≠ finFlag)
    (c : Connection) : countTo client flags (a.update c).2 = 0 := by
  rw [countTo, List.countP_eq_zero]
  intro send hsend
  rcases (sends_update hsend).2 with heq | heq
  · simp [heq, hack.symm]
  · simp [heq, hfin.symm]

theorem countTo_echoes (h : TableOk s k) (hsyn : a.isSyn) (flags : UInt16) :
    countTo client flags (s.echoes k a) =
      if flags = ntohs synFlag then owned client s else 0 := by
  have hfree : (s.allConnection.drop k).countP (fun c => c.srcAddr = clientAddr client) = 0 := by
    rw [List.countP_eq_zero]
    intro c hc
    obtain ⟨n, hn, rfl⟩ := List.mem_iff_getElem.mp hc
    rw [List.length_drop, s.size_eq] at hn
    have hslot := h.free ⟨k + n, by omega⟩ (by show k ≤ k + n; omega)
    have hgot : (s.allConnection.drop k)[n] = s.slot ⟨k + n, by omega⟩ := by
      rw [List.getElem_drop]
      rfl
    rw [hgot, hslot.srcAddr]
    simp [clientAddr, afInet]
  have howned : owned client s =
      (s.allConnection.take k).countP fun c => c.srcAddr = clientAddr client := by
    rw [owned, ← List.take_append_drop k s.allConnection, List.countP_append, hfree,
      List.take_append_drop]
    rfl
  have hflags : ∀ c, (readHeader (echo a.packet c).2).flags = ntohs synFlag := by
    intro c
    rw [echo, readHeader_image]
    exact congrArg ntohs hsyn
  rw [countTo, Server.echoes, List.countP_map, howned]
  split_ifs with hf
  · apply List.countP_congr
    intro c _
    show decide ((echo a.packet c).1 = clientAddr client ∧
      (readHeader (echo a.packet c).2).flags = flags) = true ↔ _
    rw [hflags]
    simp [hf, echo]
  · rw [List.countP_eq_zero]
    intro c _
    simp [hflags, Ne.symm hf]

theorem owned_setSlot (s : Server) (i : Fin 10) (c : Connection) :
    owned client (s.setSlot i c) = owned client s -
        (if (s.slot i).srcAddr = clientAddr client then 1 else 0) +
      if c.srcAddr = clientAddr client then 1 else 0 := by
  unfold owned Server.setSlot
  rw [List.countP_set (by rw [s.size_eq]; exact i.isLt)]
  show _ - (if decide ((s.slot i).srcAddr = clientAddr client) = true then 1 else 0) + _ = _
  simp only [decide_eq_true_eq]

theorem owned_pos {i : Fin 10} (h : (s.slot i).srcAddr = clientAddr client) :
    0 < owned client s := by
  rw [owned, List.countP_pos_iff]
  exact ⟨s.slot i, List.mem_of_getElem? (s.getElem?_slot i), by simpa using h⟩

def grants (client k : Nat) (a : Arrival) : Nat :=
  if a.isSyn ∧ a.sender = client ∧ k < 10 then 1 else 0

theorem counts_handle (h : TableOk s k) (client : Nat) (a : Arrival) :
    owned client (s.handle a).1 = owned client s + grants client k a ∧
      countTo client synAckFlag (s.handle a).2 = grants client k a ∧
      countTo client (ntohs synFlag) (s.handle a).2 = if a.isSyn then owned client s else 0 := by
  have hecho : ntohs synFlag ≠ synAckFlag := by decide
  have heffect := h.effect a
  generalize s.handle a = next at heffect ⊢
  obtain ⟨s', sent⟩ := next
  dsimp only at heffect ⊢
  unfold grants
  cases heffect with
  | opens hsyn i hi =>
      have hk : k < 10 := by
        have := i.isLt
        omega
      have hfree : ¬ (s.slot i).srcAddr = clientAddr client := by
        rw [(h.free i (by omega)).srcAddr]
        simp [clientAddr, afInet]
      have hopened : (s.opened a i).srcAddr = clientAddr client ↔ a.sender = client :=
        addr_eq_clientAddr_iff
      have hreply : ∀ flags, countTo client flags [reply (s.opened a i) a.packet] =
          if a.sender = client ∧ flags = synAckFlag then 1 else 0 := by
        intro flags
        have hflags : (readHeader (reply (s.opened a i) a.packet).2).flags = synAckFlag :=
          congrArg Header.flags (readHeader_datagram _ _)
        have howner : (reply (s.opened a i) a.packet).1 = clientAddr client ↔ a.sender = client :=
          addr_eq_clientAddr_iff
        rw [countTo, List.countP_singleton]
        simp only [hflags, howner, decide_eq_true_eq, eq_comm (a := synAckFlag)]
      rw [owned_setSlot, if_neg hfree, countTo_append, countTo_append, countTo_echoes h hsyn,
        countTo_echoes h hsyn, hreply, hreply]
      simp [hopened, hsyn, hk, hecho, hecho.symm]
  | full hsyn hk =>
      rw [countTo_echoes h hsyn, countTo_echoes h hsyn]
      simp [hsyn, hk, hecho.symm]
  | updates hflags i hi hid =>
      have hsyn : ¬ a.isSyn := Arrival.not_isSyn hflags
      rw [owned_setSlot, (updates_update a _).srcAddr, countTo_update (by decide) (by decide),
        countTo_update (by decide) (by decide)]
      refine ⟨?_, by simp [hsyn], by simp [hsyn]⟩
      by_cases howner : (s.slot i).srcAddr = clientAddr client
      · have hpos := owned_pos howner
        simp only [if_pos howner, hsyn, false_and, if_false]
        omega
      · simp [howner, hsyn]
  | ignored hsyn hid => simp [hsyn, countTo]

theorem le_usedAfter (h : TableOk s k) (a : Arrival) : k ≤ usedAfter k a := by
  have hle := h.le
  unfold usedAfter
  split_ifs <;> omega

theorem usedAfter_mono {k' : Nat} (hle : k' ≤ k) (a : Arrival) :
    usedAfter k' a ≤ usedAfter k a := by
  unfold usedAfter
  split_ifs <;> omega

theorem grants_anti {k' : Nat} (hle : k' ≤ k) (client : Nat) (a : Arrival) :
    grants client k a ≤ grants client k' a := by
  unfold grants
  by_cases hgrants : a.isSyn ∧ a.sender = client ∧ k < 10
  · rw [if_pos hgrants, if_pos ⟨hgrants.1, hgrants.2.1, by omega⟩]
  · rw [if_neg hgrants]
    exact Nat.zero_le _

theorem grants_other (h : a.sender ≠ client) (k : Nat) : grants client k a = 0 :=
  if_neg fun hgrants => h hgrants.2.1

theorem countTo_synAck_le {arrivals : List Arrival} {k' : Nat} (hs : TableOk s k)
    (ht : TableOk t k') (hle : k' ≤ k) :
    countTo client synAckFlag (outputs Server.handle s arrivals) ≤
      countTo client synAckFlag
        (outputs Server.handle t (arrivals.filter (·.sender = client))) := by
  induction arrivals generalizing s t k k' with
  | nil => exact Nat.le_refl _
  | cons a arrivals ih =>
      have hfull := (counts_handle hs client a).2.1
      rw [outputs_cons, countTo_append, hfull]
      by_cases hown : a.sender = client
      · have hrest := ih (hs.handle a) (ht.handle a) (usedAfter_mono hle a)
        have hgrants := grants_anti hle client a
        have hpurged := (counts_handle ht client a).2.1
        rw [List.filter_cons_of_pos (by simpa using hown), outputs_cons, countTo_append, hpurged]
        omega
      · have hrest := ih (hs.handle a) ht (hle.trans (le_usedAfter hs a))
        rw [List.filter_cons_of_neg (by simpa using hown), grants_other hown]
        omega

/-- If the client is answered as often without the others, then each of their `SYN`s has
brought it a datagram more. -/
theorem countTo_echo_le {arrivals : List Arrival} {k' : Nat} (hs : TableOk s k)
    (ht : TableOk t k') (hle : k' ≤ k) (howned : owned client s = owned client t)
    (hpos : 0 < owned client s)
    (hanswers : countTo client synAckFlag (outputs Server.handle s arrivals) =
      countTo client synAckFlag
        (outputs Server.handle t (arrivals.filter (·.sender = client)))) :
    countTo client (ntohs synFlag)
        (outputs Server.handle t (arrivals.filter (·.sender = client))) +
      arrivals.countP (fun a => a.isSyn ∧ a.sender ≠ client) ≤
    countTo client (ntohs synFlag) (outputs Server.handle s arrivals) := by
  induction arrivals generalizing s t k k' with
  | nil => exact Nat.le_refl _
  | cons a arrivals ih =>
      obtain ⟨hownedS, hanswerS, hechoS⟩ := counts_handle hs client a
      rw [outputs_cons, countTo_append, hanswerS] at hanswers
      rw [outputs_cons, countTo_append, hechoS]
      by_cases hown : a.sender = client
      · obtain ⟨hownedT, hanswerT, hechoT⟩ := counts_handle ht client a
        have hrest : countTo client synAckFlag (outputs Server.handle (s.handle a).1 arrivals) ≤
            countTo client synAckFlag (outputs Server.handle (t.handle a).1
              (arrivals.filter (·.sender = client))) :=
          countTo_synAck_le (hs.handle a) (ht.handle a) (usedAfter_mono hle a)
        have hgrants := grants_anti hle client a
        rw [List.filter_cons_of_pos (by simpa using hown), outputs_cons, countTo_append,
          hanswerT] at hanswers
        have hboth := ih (hs.handle a) (ht.handle a) (usedAfter_mono hle a) (by omega) (by omega)
          (by omega)
        rw [List.filter_cons_of_pos (by simpa using hown), outputs_cons, countTo_append, hechoT,
          List.countP_cons_of_neg (by simp [hown]), howned]
        omega
      · rw [List.filter_cons_of_neg (by simpa using hown), grants_other hown] at hanswers
        rw [grants_other hown] at hownedS
        have hboth := ih (hs.handle a) ht (hle.trans (le_usedAfter hs a)) (by omega) (by omega)
          (by omega)
        rw [List.filter_cons_of_neg (by simpa using hown)]
        by_cases hsyn : a.isSyn
        · rw [List.countP_cons_of_pos (by simp [hown, hsyn]), if_pos hsyn]
          omega
        · rw [List.countP_cons_of_neg (by simp [hsyn]), if_neg hsyn]
          omega

end

/-- From any reachable state with a connection of the client, as long as the others send
`SYN`s and datagrams of their own connections only: the client notices nothing of them if
and only if they send no `SYN`. -/
theorem undisturbed_iff {s : Server} (hs : s.Reachable) {client : Nat} {i : Fin 10}
    (huse : s.InUse i) (howner : (s.slot i).srcAddr = clientAddr client) {arrivals : List Arrival}
    (hothers : AlongRun Server.step (fun s a _ => Disciplined client s a) s arrivals) :
    Undisturbed client i s arrivals ↔ ∀ a ∈ arrivals, a.sender ≠ client → ¬ a.isSyn := by
  obtain ⟨k, htable⟩ := hs.tableOk
  constructor
  · rintro ⟨-, hsame⟩ a ha hother hsyn
    have hcount := countTo_echo_le htable htable le_rfl rfl (owned_pos howner)
      (countTo_eq_of_filter hsame _)
    rw [countTo_eq_of_filter hsame] at hcount
    have hnone : arrivals.countP (fun a => a.isSyn ∧ a.sender ≠ client) = 0 := by omega
    exact List.countP_eq_zero.mp hnone a ha (by simp [hsyn, hother])
  · intro hnone
    obtain ⟨halike, hsame⟩ := (unwinds client).purge (hothers.and_actions hnone)
      (Alike.refl htable)
    have hfinal : (final Server.handle s arrivals).InUse i ∧
        ((final Server.handle s arrivals).slot i).srcAddr = clientAddr client := by
      have hkept := keeps_of_reach hs (reach_of_run (fun _ _ => trivial)
        (run_final Server.handle s arrivals)) huse
      exact ⟨by rw [Server.InUse, hkept.1]; exact huse, hkept.2.trans howner⟩
    exact ⟨halike.same i (Or.inl hfinal.2), hsame⟩

/-- Clients 2 and 1 have connections 1 and 2, and both send data. -/
theorem undisturbed_two_clients :
    Undisturbed 1 1 (final Server.handle Server.start [synOf 2, synOf 1])
        [firstDataOf 2 1 [7], firstDataOf 1 2 [8], finOf 2 1 12347] ↔
      ∀ a ∈ [firstDataOf 2 1 [7], firstDataOf 1 2 [8], finOf 2 1 12347],
        a.sender ≠ 1 → ¬ a.isSyn :=
  undisturbed_iff
    (reach_of_run (fun _ _ => trivial) (run_final Server.handle Server.start [synOf 2, synOf 1]))
    (by decide +kernel) (by decide +kernel) (by decide +kernel)

/-- Client 1 has a connection, and is sent the `SYN` of client 2 in host order. -/
theorem syn_echoed_to_other_client :
    let s := (Server.start.handle (synOf 1)).1
    s.Reachable ∧ s.InUse 0 ∧ (s.slot 0).srcAddr = clientAddr 1 ∧
      AlongRun Server.step (fun s a _ => Disciplined 1 s a) s [synOf 2] ∧
      ¬ Undisturbed 1 0 s [synOf 2] := by
  refine ⟨reach_of_run (fun _ _ => trivial)
    (run_final Server.handle Server.start [synOf 1]), by decide +kernel, by decide +kernel,
    by decide +kernel, fun h => ?_⟩
  exact absurd h.2 (by decide +kernel)

end Cs118.Confundo
